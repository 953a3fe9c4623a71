/-
**The guards of a channel.**

A message passes six guards before a handler sees it: it has to come from an allowed origin and from the
frame that is expected, to have the shape of a message, to carry the identifier that is needed, to be of
a type that has a handler, and its data have to be such that they can be copied.  Each guard is stated
here on its own; the channel takes a message exactly if it passes them all, and drops any other one for
the first guard that it fails.

* `Channel.Guard`, `Channel.Guard.order` — the guards and their order;
* `Event.HasType`, `Event.Carries`, `Event.CopiedAs` — what a message says and what a handler gets;
* `Channel.Passes` — a message passes a guard;
* `Channel.FailsFirst` — the first guard that a message fails;
* `Channel.isGuarded` — **a message passes all guards, or is dropped for the first that it fails**.
-/

import SketchHost.Proofs.Channel.Copying
import SketchHost.Proofs.Channel.Origins

set_option relaxedAutoImplicit false
set_option autoImplicit false

namespace SketchHost

/-! ### What a message says -/

namespace Event

/-- A message is a record that names its type. -/
def HasType (e : Event) (type : String) : Prop :=
  e.data.textAt? "type" = some type

/-- A message is a record that carries an identifier: a text that is not empty. -/
def Carries (e : Event) (id : String) : Prop :=
  e.data.textAt? Message.idField = some id ∧ id ≠ ""

/-- What a handler gets for a message: its data if they are plain, for then a copy is equal to them.  Data
that are not plain cannot be copied, and it gets what they look like in JSON: the same without guards, which
has to be plain and such that it can be written. -/
inductive CopiedAs (e : Event) (payload : Fields) : Prop
  | same (hdata : e.data = .ofValue (.record payload))
  | image (hrefused : ∀ v, e.data ≠ .ofValue v) (hopen : e.data.unguarded = .ofValue (.record payload))
      (hwritable : (Value.record payload).isWritable = true)

end Event

/-- A type is found under its name. -/
theorem MessageType.ofName?_eq_some_iff {s : String} {t : MessageType} :
    MessageType.ofName? s = some t ↔ s = t.name := by
  constructor
  · intro h
    have hname := List.find?_some h
    exact (beq_iff_eq.1 hname).symm
  · rintro rfl
    exact MessageType.ofName?_name t

namespace Channel

/-! ### The guards -/

/-- The guards that a message has to pass. -/
inductive Guard where
  | origin
  | sender
  | shape
  | identity
  | handler
  | copy
deriving DecidableEq, Repr

namespace Guard

/-- The guards in their order. -/
def order : List Guard := [origin, sender, shape, identity, handler, copy]

/-- The guards that come before one. -/
def earlier (g : Guard) : List Guard :=
  order.takeWhile (· ≠ g)

/-- The reason that is given when a guard drops a message. -/
def reason : Guard → String
  | origin => "origin"
  | sender => "source"
  | shape => "shape"
  | identity => "identity"
  | handler => "type"
  | copy => "clone"

end Guard

variable {τ : Type}

/-- A message passes a guard of a channel. -/
def Passes (c : Channel τ) (e : Event) : Guard → Prop
  | .origin => ∃ base ∈ c.allowed, Origin.Extends base e.origin
  | .sender => ∀ frame ∈ c.sender.frame, e.source = some frame
  | .shape => ∃ type, e.HasType type
  | .identity => (c.requiresId = true → ∃ id, e.Carries id) ∧ ∀ id ∈ c.expectedId, e.Carries id
  | .handler => ∃ t h, e.HasType t.name ∧ c.handler? t = some h
  | .copy => ∃ payload, e.CopiedAs payload

/-- A guard is the first one that a message fails. -/
structure FailsFirst (c : Channel τ) (e : Event) (g : Guard) : Prop where
  earlier : ∀ g' ∈ g.earlier, c.Passes e g'
  fails : ¬ c.Passes e g

/-! ### The tests -/

theorem sender_test_iff {c : Channel τ} {e : Event} :
    (c.sender.frame.isSome && e.source != c.sender.frame) = false ↔ c.Passes e .sender := by
  rw [Passes]
  cases c.sender.frame <;> simp

/-- The identifier in the data of a message is the one that it carries. -/
theorem carries_iff {e : Event} {id : String} : e.Carries id ↔ sentId e.data = some id := by
  rw [sentId, Option.filter_eq_some_iff, Event.Carries]
  simp

/-- The two tests of the identifier together are the guard. -/
theorem identity_tests_iff {c : Channel τ} {e : Event} :
    (c.requiresId && (sentId e.data).isNone) = false ∧
        (c.expectedId.isSome && sentId e.data != c.expectedId) = false ↔
      c.Passes e .identity := by
  rw [Passes]
  refine and_congr ?_ ?_
  · simp only [carries_iff, ← Option.isSome_iff_exists]
    cases c.requiresId <;> simp
  · simp only [carries_iff]
    cases c.expectedId <;> simp

theorem handlerNamed?_eq_some_iff {c : Channel τ} {type : String} {t : MessageType} {h : Handler} :
    c.handlerNamed? type = some (t, h) ↔ type = t.name ∧ c.handler? t = some h := by
  simp only [handlerNamed?, Option.bind_eq_some_iff, MessageType.ofName?_eq_some_iff,
    Option.map_eq_some_iff, Prod.mk.injEq]
  constructor
  · rintro ⟨u, hname, k, hk, rfl, rfl⟩
    exact ⟨hname, hk⟩
  · rintro ⟨hname, hk⟩
    exact ⟨t, hname, h, hk, rfl, rfl⟩

/-- The payload for a record is what its handler is to get. -/
theorem payloadOf_eq_ok_iff {e : Event} (hdata : e.data.fields?.isSome = true) {payload : Fields} :
    payloadOf e.data = .ok payload ↔ e.CopiedAs payload := by
  have hclone : payloadOf e.data = .ok payload ↔ e.data.clone = .ok (.record payload) := by
    rw [payloadOf]
    cases h : e.data.clone with
    | error why => simp
    | ok v =>
        obtain ⟨fields, rfl⟩ := Datum.exists_record_of_clone hdata h
        simp [Value.fields?]
  rw [hclone, Datum.clone_eq_ok_iff]
  constructor
  · rintro (hsame | ⟨hrefused, hopen, hwritable⟩)
    · exact .same hsame
    · exact .image hrefused hopen hwritable
  · rintro (hsame | ⟨hrefused, hopen, hwritable⟩)
    · exact Or.inl hsame
    · exact Or.inr ⟨hrefused, hopen, hwritable⟩

/-- A message has one type. -/
theorem hasType_unique {e : Event} {type type' : String} (h : e.HasType type)
    (h' : e.HasType type') : type = type' :=
  Option.some.inj (h.symm.trans h')

/-! ### All guards -/

/-- A message passes all guards, and its handler is to get a copy of its data, or it is dropped for the
first guard that it fails. -/
def IsGuarded (c : Channel τ) (e : Event) : Prop :=
  (∃ t h payload, (∀ g, c.Passes e g) ∧ e.HasType t.name ∧ c.handler? t = some h ∧
      e.CopiedAs payload ∧ c.accept e = .ok ⟨t, h, payload⟩) ∨
    ∃ g d, c.FailsFirst e g ∧ Drop.reason d = g.reason ∧ c.accept e = .error d

/-- A message that passes the first four guards is looked at for its handler and its copy. -/
theorem isGuarded_of_identity {c : Channel τ} {e : Event} {type : String}
    (horigin : c.Passes e .origin) (hsender : c.Passes e .sender) (htype : e.HasType type)
    (hidentity : c.Passes e .identity) : c.IsGuarded e := by
  obtain ⟨hmissing, hother⟩ := identity_tests_iff.2 hidentity
  have hdata := Datum.isSome_fields?_of_textAt? htype
  have hshape : e.data.textAt? "type" = some type := htype
  have htypes : c.Passes e .shape := ⟨type, htype⟩
  have horigin' := Origin.isAllowed_iff.2 horigin
  have hsender' := sender_test_iff.2 hsender
  -- four guards are passed, so only the handler and the copy are left to decide
  cases hhandler : c.handlerNamed? type with
  | none =>
      refine Or.inr ⟨.handler, .unregistered type, ⟨?_, ?_⟩, rfl, ?_⟩
      · simpa [Guard.earlier, Guard.order] using ⟨horigin, hsender, htypes, hidentity⟩
      · rintro ⟨t, h, hname, hregistered⟩
        have : c.handlerNamed? type = some (t, h) :=
          handlerNamed?_eq_some_iff.2 ⟨hasType_unique htype hname, hregistered⟩
        simp [this] at hhandler
      · simp [accept, horigin', hsender', hshape, hmissing, hother, hhandler]
  | some entry =>
      obtain ⟨t, h⟩ := entry
      obtain ⟨rfl, hregistered⟩ := handlerNamed?_eq_some_iff.1 hhandler
      have hhandlers : c.Passes e .handler := ⟨t, h, htype, hregistered⟩
      cases hcopy : payloadOf e.data with
      | error d =>
          refine Or.inr ⟨.copy, d, ⟨?_, ?_⟩, ?_, ?_⟩
          · simpa [Guard.earlier, Guard.order] using
              ⟨horigin, hsender, htypes, hidentity, hhandlers⟩
          · rintro ⟨payload, hpayload⟩
            simp [(payloadOf_eq_ok_iff hdata).2 hpayload] at hcopy
          · rw [payloadOf] at hcopy
            split at hcopy
            · simp at hcopy
            · rw [← Except.error.inj hcopy]
              rfl
          · simp [accept, horigin', hsender', hshape, hmissing, hother, hhandler, hcopy]
      | ok payload =>
          have hcopied : e.CopiedAs payload := (payloadOf_eq_ok_iff hdata).1 hcopy
          refine Or.inl ⟨t, h, payload, ?_, htype, hregistered, hcopied, ?_⟩
          · intro g
            cases g with
            | origin => exact horigin
            | sender => exact hsender
            | shape => exact htypes
            | identity => exact hidentity
            | handler => exact hhandlers
            | copy => exact ⟨payload, hcopied⟩
          · simp [accept, horigin', hsender', hshape, hmissing, hother, hhandler, hcopy]

/-- A message that passes the first three guards is looked at for its identifier, which may be missing
or another one than is expected. -/
theorem isGuarded_of_shape {c : Channel τ} {e : Event} {type : String}
    (horigin : c.Passes e .origin) (hsender : c.Passes e .sender) (htype : e.HasType type) :
    c.IsGuarded e := by
  by_cases hidentity : c.Passes e .identity
  · exact isGuarded_of_identity horigin hsender htype hidentity
  · have hshape : e.data.textAt? "type" = some type := htype
    have hfirst : c.FailsFirst e .identity := by
      refine ⟨?_, hidentity⟩
      simpa [Guard.earlier, Guard.order] using ⟨horigin, hsender, type, htype⟩
    have horigin' := Origin.isAllowed_iff.2 horigin
    have hsender' := sender_test_iff.2 hsender
    -- the guard has two tests, and each drops the message with words of its own
    cases hmissing : c.requiresId && (sentId e.data).isNone with
    | true =>
        refine Or.inr ⟨.identity, .missingId, hfirst, rfl, ?_⟩
        simp [accept, horigin', hsender', hshape, hmissing]
    | false =>
        have hother : (c.expectedId.isSome && sentId e.data != c.expectedId) = true := by
          simpa [hmissing] using mt identity_tests_iff.1 hidentity
        refine Or.inr ⟨.identity, .unexpectedId (sentId e.data), hfirst, rfl, ?_⟩
        simp [accept, horigin', hsender', hshape, hmissing, hother]

/-- **A message passes all guards, or is dropped for the first that it fails.** -/
theorem isGuarded (c : Channel τ) (e : Event) : c.IsGuarded e := by
  by_cases horigin : c.Passes e .origin
  · by_cases hsender : c.Passes e .sender
    · cases hshape : e.data.textAt? "type" with
      | some type => exact isGuarded_of_shape horigin hsender hshape
      | none =>
          refine Or.inr ⟨.shape, .shape, ⟨?_, ?_⟩, rfl, ?_⟩
          · simpa [Guard.earlier, Guard.order] using ⟨horigin, hsender⟩
          · rintro ⟨type, htype⟩
            exact Option.some_ne_none type (htype.symm.trans hshape)
          · simp [accept, Origin.isAllowed_iff.2 horigin, sender_test_iff.2 hsender, hshape]
    · have htest : (c.sender.frame.isSome && e.source != c.sender.frame) = true := by
        simpa using mt sender_test_iff.1 hsender
      refine Or.inr ⟨.sender, .source, ⟨?_, hsender⟩, rfl, ?_⟩
      · simpa [Guard.earlier, Guard.order] using horigin
      · simp [accept, Origin.isAllowed_iff.2 horigin, htest]
  · have htest : Origin.isAllowed e.origin c.allowed = false := by
      simpa using mt Origin.isAllowed_iff.1 horigin
    refine Or.inr ⟨.origin, .origin e.origin, ⟨?_, horigin⟩, rfl, by simp [accept, htest]⟩
    simp [Guard.earlier, Guard.order]

/-- What a channel makes of a message that it takes. -/
theorem accept_eq_ok {c : Channel τ} {e : Event} {a : Accepted} (h : c.accept e = .ok a) :
    (∀ g, c.Passes e g) ∧ e.HasType a.type.name ∧ c.handler? a.type = some a.handler ∧
      e.CopiedAs a.payload := by
  rcases c.isGuarded e with
    ⟨t, handler, payload, hall, htype, hregistered, hcopied, haccept⟩ | ⟨g, d, -, -, hdropped⟩
  · obtain rfl := Except.ok.inj (haccept.symm.trans h)
    exact ⟨hall, htype, hregistered, hcopied⟩
  · simp [hdropped] at h

end Channel

end SketchHost
