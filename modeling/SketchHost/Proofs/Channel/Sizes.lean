/-
**Only sizes that were reported.**

A frame may send anything, and a size may wait in the throttle while other messages come in.  Still the
callback for sizes is called only with what messages have said: each call has a message of its own, which
passed all guards when it came in, and the calls follow in the order of their messages.  The sides are
those in the message, numbers that are finite and not negative, and the identifier is the one in the
message.  The size that is held back, and the one that counts as the last, come from such messages too.
Handlers that are registered do not matter: what they are called with does not reach the throttle.

* `Number.IsSide`, `Message.Measures` — what a payload has to say to report a size;
* `Channel.PassesOn` — what a command does to the sizes that are held back;
* `Channel.Session.Brings`, `Channel.Session.Sends` — a command of a run is a message that reports a size;
* `Channel.Session.exists_brought` — one command passes on what was held back and what it brings;
* `Channel.Session.exists_numbered` — the sizes of a run, each with the number of its message;
* `Channel.Session.sizes_from_messages` — **every size that is held or called with was reported**.
-/

import SketchHost.Proofs.Channel.Routing
import SketchHost.Proofs.Resize.Separation
import Mathlib.Data.List.Forall2
import Mathlib.Data.List.Induction

set_option relaxedAutoImplicit false
set_option autoImplicit false

namespace SketchHost

/-! ### Payloads that report a size -/

/-- A number that can be a side of a canvas: it is finite, also as a binary64 number, and not below
zero. -/
structure Number.IsSide (n : Number) : Prop where
  finite : n.isFinite = true
  inRange : n.isTooLarge = false
  nonnegative : n.isNegative = false

namespace Message

/-- A payload reports a size: its sides are the numbers in the payload, and the identifier is the text
under the name for identifiers, or under the long name if the short one is left out. -/
structure Measures (payload : Fields) (r : Resize.Report Resize.Size) : Prop where
  width : Fields.find? "width" payload = some r.size.width.toValue
  height : Fields.find? "height" payload = some r.size.height.toValue
  width_isSide : r.size.width.IsSide
  height_isSide : r.size.height.IsSide
  id : ∀ id, r.id = some id ↔
    (Fields.find? idField payload).or (Fields.find? idFieldInFull payload) = some (.text id)

/-- A value that is read as a side is a number that can be one. -/
theorem eq_toValue_of_side? {v : Value} {n : Number} (h : side? v = some n) :
    v = n.toValue ∧ n.isFinite = true ∧ n.isNegative = false := by
  obtain ⟨hnumber, hside⟩ := Option.filter_eq_some_iff.1 h
  have hvalue : v = n.toValue := by
    cases v <;> simp only [Number.ofValue?, Option.some.injEq, reduceCtorEq] at hnumber
    all_goals exact hnumber ▸ rfl
  exact ⟨hvalue, by simpa using hside⟩

/-- A side in a field that is not too large. -/
theorem isSide_of_find? {name : String} {payload : Fields} {n : Number}
    (hrange : overflows name payload = false)
    (h : (Fields.find? name payload).bind side? = some n) :
    Fields.find? name payload = some n.toValue ∧ n.IsSide := by
  obtain ⟨v, hfind, hside⟩ := Option.bind_eq_some_iff.1 h
  obtain ⟨rfl, hfinite, hnonnegative⟩ := eq_toValue_of_side? hside
  refine ⟨hfind, hfinite, ?_, hnonnegative⟩
  simpa [overflows, hfind] using hrange

/-- The identifier that is read is the text in the field for it. -/
theorem identity_eq_ok {payload : Fields} {read : Option String} (h : identity payload = .ok read)
    (id : String) :
    read = some id ↔
      (Fields.find? idField payload).or (Fields.find? idFieldInFull payload) = some (.text id) := by
  have hfield : Fields.find? (if (Fields.find? idField payload).isSome then idField else idFieldInFull)
      payload = (Fields.find? idField payload).or (Fields.find? idFieldInFull payload) := by
    cases hshort : Fields.find? idField payload with
    | none => rfl
    | some v => simp [hshort]
  rw [identity, optionalField, hfield] at h
  cases hvalue : (Fields.find? idField payload).or (Fields.find? idFieldInFull payload) with
  | none =>
      rw [hvalue] at h
      simp [← Except.ok.inj h]
  | some v =>
      rw [hvalue] at h
      -- null stands for no identifier, and nothing but a text is taken for one
      cases v <;> simp [Value.orNull, Value.asText, Except.mapError, Except.map] at h
      all_goals simp [← h]

/-- What is read as a size is what the payload reports. -/
theorem measures_of_size {payload : Fields} {r : Resize.Report Resize.Size}
    (h : size payload = .ok r) : Measures payload r := by
  rw [size] at h
  split at h
  · contradiction
  · next hrange =>
      obtain ⟨hwide, htall⟩ : overflows "width" payload = false ∧ overflows "height" payload = false := by
        simpa using hrange
      split at h
      · next id w t hnotice hw ht =>
          obtain rfl := Except.ok.inj h
          obtain ⟨hwidth, hwidthSide⟩ := isSide_of_find? hwide hw
          obtain ⟨hheight, hheightSide⟩ := isSide_of_find? htall ht
          refine ⟨hwidth, hheight, hwidthSide, hheightSide, identity_eq_ok ?_⟩
          rw [notice] at hnotice
          split at hnotice
          · next hid => rw [hid, Except.ok.inj hnotice]
          · contradiction
      · contradiction

end Message

namespace Channel

/-! ### What a command passes on -/

/-- The report of a size that the callback for sizes is called with. -/
def Call.size? : Call → Option (Resize.Report Resize.Size)
  | .resize r => some r
  | _ => none

/-- The sizes among several calls. -/
def sizesOf (calls : List Call) : List (Resize.Report Resize.Size) :=
  calls.filterMap Call.size?

@[simp] theorem sizesOf_nil : sizesOf [] = [] := rfl

@[simp] theorem sizesOf_map_resize (rs : List (Resize.Report Resize.Size)) :
    sizesOf (rs.map .resize) = rs := by
  rw [sizesOf, List.filterMap_map]
  exact List.filterMap_some

variable {τ : Type}

/-- The size that counts as the last one. -/
def last? (c : Channel τ) : Option Resize.Size :=
  c.throttle.bind Resize.Throttle.last

/-- From one state to another sizes are called with and held back in their order, each once: those that
were held back, and at most one that was brought.  The last size is the one from before, or one of those
that are called with. -/
structure PassesOn (c d : Channel τ) (sizes : List (Resize.Report Resize.Size))
    (brought : Option (Resize.Report Resize.Size)) : Prop where
  kept : (sizes ++ d.held?.toList).Sublist (c.held?.toList ++ brought.toList)
  last : ∀ size ∈ d.last?, size ∈ c.last? ∨ ∃ r ∈ sizes, r.size = size

/-- Where the throttle stays as it is, there is nothing to pass on. -/
theorem passesOn_of_throttle_eq {c d : Channel τ} (h : d.throttle = c.throttle) :
    PassesOn c d [] none where
  kept := by simp [held?, h]
  last := fun size hsize => Or.inl (by rwa [last?, h] at hsize)

theorem passesOn_reset (c : Channel τ) : PassesOn c c.reset [] none where
  kept := by simp
  last := by
    cases h : c.throttle <;> simp [last?, reset, h, Resize.Throttle.reset]

theorem passesOn_close (c : Channel τ) : PassesOn c c.close [] none where
  kept := by simp
  last := by
    cases h : c.throttle <;> simp [last?, close, h, Resize.Throttle.cancel]

theorem passesOn_runLoop (b : Bool) (c : Channel τ) : PassesOn c (c.runLoop b) [] none where
  kept := by simp
  last := by
    cases h : c.throttle <;> simp [last?, runLoop, h, Resize.Throttle.runLoop]

section Clock

variable [Resize.Clock τ]

/-- A size that is offered to the throttle. -/
theorem passesOn_offer {c : Channel τ} {t : Resize.Throttle τ Resize.Size} (ht : c.throttle = some t)
    (now : τ) (r : Resize.Report Resize.Size) :
    PassesOn c { c with throttle := some (t.offer now r).1.after } (t.offer now r).1.given (some r) where
  kept := by
    simpa [held?, ht, Resize.Session.step, Resize.Command.offered?]
      using Resize.Session.sublist_offered_step ⟨now, t⟩ (.offer r)
  last := fun size hsize => by
    simpa [last?, ht] using Resize.Throttle.last_offer (by simpa [last?] using hsize)

/-- The timers of the throttle. -/
theorem passesOn_fire (now : τ) (c : Channel τ) :
    PassesOn c (c.fire now).1 (sizesOf (c.fire now).2.2) none := by
  cases ht : c.throttle with
  | none => simpa [fire, ht] using passesOn_of_throttle_eq (c := c) rfl
  | some t =>
      simp only [fire, ht, sizesOf_map_resize]
      refine ⟨?_, fun size hsize => ?_⟩
      · simpa [held?, ht, Resize.Session.step, Resize.Command.offered?]
          using Resize.Session.sublist_offered_step ⟨now, t⟩ .fire
      · simpa [last?, ht] using Resize.Throttle.last_fire (by simpa [last?] using hsize)

/-- A run of a handler brings a size if it is the callback for sizes and the payload reports one. -/
theorem Ran.passesOn {react : Call → Reaction} {now : τ} {c : Channel τ} {t : MessageType}
    {payload : Fields} {handler : Handler} {h : Handled τ} (hran : Ran react now c t payload handler h) :
    ∃ brought, (∀ r ∈ brought, t = .resize ∧ Message.Measures payload r) ∧
      PassesOn c h.after (sizesOf h.calls) brought := by
  cases hran with
  | offered hcall hthrottle =>
      rename_i r throttle
      obtain ⟨htype, htells⟩ := hcall
      cases htells with
      | resize hread =>
          refine ⟨some r, ?_, by simpa using passesOn_offer hthrottle now r⟩
          rintro q hq
          obtain rfl := Option.some.inj hq
          exact ⟨(Option.some.inj htype).symm, Message.measures_of_size hread⟩
  | @called call hcall hother =>
      refine ⟨none, by simp, ?_⟩
      have hnone : Call.size? call = none := by
        cases call with
        | resize r => exact absurd (Option.some.inj hcall.type).symm hother
        | _ => rfl
      simpa [sizesOf, hnone] using passesOn_of_throttle_eq (c := c) rfl
  | _ => exact ⟨none, by simp, passesOn_of_throttle_eq rfl⟩

end Clock

namespace Session

variable [Resize.Clock τ]

/-- A command brings the report of a size: it is a message of that type, it finds the channel open and
passes all guards, and the copy that a handler gets of it reports the size. -/
def Brings (s : Session τ) (c : Command τ) (r : Resize.Report Resize.Size) : Prop :=
  ∃ e react payload, c = .message e react ∧ s.channel.closed = false ∧ (∀ g, s.channel.Passes e g) ∧
    e.HasType MessageType.resize.name ∧ e.CopiedAs payload ∧ Message.Measures payload r

/-- Every command passes on what was held back and what it brings. -/
theorem exists_brought {s : Session τ} (hs : s.channel.Equipped) (c : Command τ) :
    ∃ brought, (∀ r ∈ brought, s.Brings c r) ∧
      PassesOn s.channel (s.step c).channel (sizesOf (s.trace c).calls) brought := by
  cases c with
  | message e react =>
      rcases routes_or_ignores react s.now hs e with
        ⟨⟨hopen, hpasses⟩, t, handler, payload, htype, -, hcopied, hran⟩ | ⟨-, hignores⟩
      · obtain ⟨brought, hbrought, hpassed⟩ := hran.passesOn
        refine ⟨brought, fun r hr => ?_, hpassed⟩
        obtain ⟨rfl, hmeasures⟩ := hbrought r hr
        exact ⟨e, react, payload, rfl, hopen, hpasses, htype, hcopied, hmeasures⟩
      · refine ⟨none, by simp, ?_⟩
        simpa [step, trace, hignores.unchanged, hignores.silent]
          using passesOn_of_throttle_eq (c := s.channel) rfl
  | addOrigin origin =>
      refine ⟨none, by simp, passesOn_of_throttle_eq ?_⟩
      rw [step, addOrigin]
      cases Origin.add s.channel.allowed origin <;> rfl
  | register type h hother =>
      refine ⟨none, by simp, passesOn_of_throttle_eq ?_⟩
      rw [step, register?]
      split <;> rfl
  | fire => exact ⟨none, by simp, passesOn_fire s.now s.channel⟩
  | reset => exact ⟨none, by simp, passesOn_reset s.channel⟩
  | close => exact ⟨none, by simp, passesOn_close s.channel⟩
  | runLoop b => exact ⟨none, by simp, passesOn_runLoop b s.channel⟩
  | _ => exact ⟨none, by simp, passesOn_of_throttle_eq rfl⟩

/-! ### Runs -/

/-- The sizes that the callback for sizes is called with in a run, in the order of the calls. -/
def sizeCalls (s : Session τ) (cs : List (Command τ)) : List (Resize.Report Resize.Size) :=
  (s.traces cs).flatMap fun t => sizesOf t.calls

@[simp] theorem sizeCalls_nil (s : Session τ) : s.sizeCalls [] = [] := rfl

/-- The calls of a run with one command more are its calls and those of the command. -/
theorem sizeCalls_concat (s : Session τ) (cs : List (Command τ)) (c : Command τ) :
    s.sizeCalls (cs ++ [c]) = s.sizeCalls cs ++ sizesOf ((s.after cs).trace c).calls := by
  induction cs generalizing s with
  | nil => simp [sizeCalls, traces]
  | cons d rest ih =>
      have hrest := ih (s.step d)
      simp only [sizeCalls] at hrest
      simp [sizeCalls, traces, hrest]

/-- The command of a number in a run brings the report of a size. -/
def Sends (s : Session τ) (cs : List (Command τ)) (i : Nat) (r : Resize.Report Resize.Size) : Prop :=
  ∃ c ∈ cs[i]?, (s.after (cs.take i)).Brings c r

/-- What a run sends, a longer one sends as well. -/
theorem Sends.concat {s : Session τ} {cs : List (Command τ)} {i : Nat}
    {r : Resize.Report Resize.Size} (h : s.Sends cs i r) (c : Command τ) : s.Sends (cs ++ [c]) i r := by
  obtain ⟨d, hd, hbrings⟩ := h
  obtain ⟨hi, -⟩ := List.getElem?_eq_some_iff.1 hd
  refine ⟨d, ?_, ?_⟩
  · rwa [List.getElem?_append_left hi]
  · rwa [List.take_append_of_le_length (Nat.le_of_lt hi)]

/-- What the last command of a run brings. -/
theorem sends_concat {s : Session τ} {cs : List (Command τ)} {c : Command τ}
    {r : Resize.Report Resize.Size} (h : (s.after cs).Brings c r) :
    s.Sends (cs ++ [c]) cs.length r :=
  ⟨c, by simp, by simpa using h⟩

/-- Reports of sizes with the numbers of the commands that sent them, in the order of these. -/
structure Numbered (s : Session τ) (cs : List (Command τ))
    (sent : List (Nat × Resize.Report Resize.Size)) : Prop where
  ordered : (sent.map Prod.fst).Pairwise (· < ·)
  sends : ∀ m ∈ sent, s.Sends cs m.1 m.2

theorem Numbered.sublist {s : Session τ} {cs : List (Command τ)}
    {sent sent' : List (Nat × Resize.Report Resize.Size)} (h : s.Numbered cs sent)
    (hsub : sent'.Sublist sent) : s.Numbered cs sent' :=
  ⟨h.ordered.sublist (hsub.map Prod.fst), fun m hm => h.sends m (hsub.subset hm)⟩

/-- A command adds what it brings, with its own number. -/
theorem Numbered.concat {s : Session τ} {cs : List (Command τ)}
    {sent : List (Nat × Resize.Report Resize.Size)} (h : s.Numbered cs sent) {c : Command τ}
    {brought : Option (Resize.Report Resize.Size)} (hb : ∀ r ∈ brought, (s.after cs).Brings c r) :
    s.Numbered (cs ++ [c]) (sent ++ brought.toList.map fun r => (cs.length, r)) where
  ordered := by
    rw [List.map_append, List.pairwise_append]
    refine ⟨h.ordered, by cases brought <;> simp, fun i hi j hj => ?_⟩
    -- the numbers that were there belong to commands of the run
    obtain ⟨m, hm, rfl⟩ := List.mem_map.1 hi
    obtain ⟨d, hd, -⟩ := h.sends m hm
    obtain ⟨hlt, -⟩ := List.getElem?_eq_some_iff.1 hd
    obtain rfl : j = cs.length := by
      cases brought <;> simp_all
    exact hlt
  sends := fun m hm => by
    rcases List.mem_append.1 hm with hm | hm
    · exact (h.sends m hm).concat c
    · obtain ⟨r, hr, rfl⟩ := List.mem_map.1 hm
      exact sends_concat (hb r (by simpa using hr))

/-- What a run calls with and leaves held back, with the numbers of the messages that it comes from. -/
theorem exists_numbered {s : Session τ} (hs : s.channel.Equipped) (hheld : s.channel.held? = none)
    (cs : List (Command τ)) :
    ∃ sent, s.Numbered cs sent ∧
      sent.map Prod.snd = s.sizeCalls cs ++ (s.after cs).channel.held?.toList := by
  induction cs using List.reverseRecOn with
  | nil => exact ⟨[], ⟨by simp, by simp⟩, by simp [hheld]⟩
  | append_singleton cs c ih =>
      obtain ⟨sent, hnumbered, hsent⟩ := ih
      obtain ⟨brought, hbrought, hpassed⟩ := exists_brought (equipped_after hs cs) c
      -- the command takes away from what was held back and what it brings, and changes no order
      have hsub : (s.sizeCalls (cs ++ [c]) ++ (s.after (cs ++ [c])).channel.held?.toList).Sublist
          ((sent ++ brought.toList.map fun r => (cs.length, r)).map Prod.snd) := by
        have hkept := hpassed.kept.append_left (s.sizeCalls cs)
        simpa [sizeCalls_concat, after_append, hsent, Function.comp_def, List.append_assoc] using hkept
      obtain ⟨sent', hsub', hsent'⟩ := List.sublist_map_iff.1 hsub
      exact ⟨sent', (hnumbered.concat hbrought).sublist hsub', hsent'.symm⟩

/-- The last size is the one from before the run, or one that the callback was called with. -/
theorem last_after {s : Session τ} (hs : s.channel.Equipped) (cs : List (Command τ))
    {size : Resize.Size} (h : size ∈ (s.after cs).channel.last?) :
    size ∈ s.channel.last? ∨ ∃ r ∈ s.sizeCalls cs, r.size = size := by
  induction cs using List.reverseRecOn with
  | nil => exact Or.inl h
  | append_singleton cs c ih =>
      obtain ⟨brought, -, hpassed⟩ := exists_brought (equipped_after hs cs) c
      rw [sizeCalls_concat]
      rw [after_append] at h
      rcases hpassed.last size h with hbefore | ⟨r, hr, hsize⟩
      · exact (ih hbefore).imp id fun ⟨r, hr, hsize⟩ => ⟨r, List.mem_append_left _ hr, hsize⟩
      · exact Or.inr ⟨r, List.mem_append_right _ hr, hsize⟩

/-- All sizes of a run come from its messages. -/
structure FromMessages (s : Session τ) (cs : List (Command τ)) : Prop where
  /-- Each call with a size comes from a message of its own, in the order of the messages. -/
  called : ∃ numbers : List Nat, numbers.Pairwise (· < ·) ∧
    List.Forall₂ (s.Sends cs) numbers (s.sizeCalls cs)
  held : ∀ r ∈ (s.after cs).channel.held?, ∃ i, s.Sends cs i r
  last : ∀ size ∈ (s.after cs).channel.last?, ∃ i r, s.Sends cs i r ∧ r.size = size

/-- A channel that was built has met no size. -/
theorem held?_last?_of_build {o : Options} {c : Channel Float} (h : o.build = .ok c) :
    c.held? = none ∧ c.last? = none := by
  rcases throttle_eq_ok (handlers_throttle_of_build h).2 with ⟨-, hnone⟩ | ⟨window, hmade⟩
  · simp [held?, last?, hnone]
  · simp [held?, last?, hmade, Resize.Throttle.make]

/-- **Every size that is held or called with was reported.**  A channel that was built is met by any
commands.  The calls with sizes, at once or by a timer, come one by one from messages of the run, in the
order of the messages: each of these found the channel open and passed all guards, and reports the size
and the identifier that the callback is called with.  The size that is held back comes from such a
message, and so does the one that counts as the last.  As this holds of every run, it holds at every
moment of one, so that the messages come before the calls. -/
theorem sizes_from_messages {o : Options} {c₀ : Channel Float} (hbuilt : o.build = .ok c₀)
    (start : Float) (cs : List (Command Float)) :
    (⟨start, c₀⟩ : Session Float).FromMessages cs := by
  obtain ⟨hheld, hlast⟩ := held?_last?_of_build hbuilt
  have hequipped := equipped_build hbuilt
  obtain ⟨sent, hnumbered, hsent⟩ := exists_numbered (s := ⟨start, c₀⟩) hequipped hheld cs
  -- every report that is called with or held back has a message
  have hsends : ∀ r ∈ (⟨start, c₀⟩ : Session Float).sizeCalls cs ++
      ((⟨start, c₀⟩ : Session Float).after cs).channel.held?.toList,
      ∃ i, (⟨start, c₀⟩ : Session Float).Sends cs i r := by
    intro r hr
    rw [← hsent] at hr
    obtain ⟨m, hm, rfl⟩ := List.mem_map.1 hr
    exact ⟨m.1, hnumbered.sends m hm⟩
  refine ⟨?_, fun r hr => hsends r (List.mem_append_right _ (by simpa using hr)), fun size hsize => ?_⟩
  · obtain ⟨called, waiting, rfl, hcalled, -⟩ := List.map_eq_append_iff.1 hsent
    have hfirst := hnumbered.sublist (List.sublist_append_left called waiting)
    refine ⟨called.map Prod.fst, hfirst.ordered, ?_⟩
    rw [← hcalled, List.forall₂_map_left_iff, List.forall₂_map_right_iff, List.forall₂_same]
    exact hfirst.sends
  · rcases last_after (s := ⟨start, c₀⟩) hequipped cs hsize with hbefore | ⟨r, hr, rfl⟩
    · simp [hlast] at hbefore
    · obtain ⟨i, hi⟩ := hsends r (List.mem_append_left _ hr)
      exact ⟨i, r, hi, rfl⟩

/-- What the frame of the porch gives out as a size. -/
def measured (width height : Value) (id : String) : Event :=
  ⟨"http://localhost", some "frame-1",
    .ofValue (.record [("type", .text "resize"), ("width", width), ("height", height),
      (Message.idField, .text id)])⟩

/-- A frame that reports a size, then a truth value, a text and a negative number for a width, and
another size that waits for a timer. -/
def fumbling : List (Command Float) :=
  [.message (measured (.int 300) (.int 200) "sketch-1") fun _ => .done, .setClock 0.01,
    .message (measured (.bool true) (.int 200) "sketch-1") fun _ => .done,
    .message (measured (.text "310") (.int 200) "sketch-1") fun _ => .done,
    .message (measured (.float 320.5) (.int 200) "sketch-2") fun _ => .done,
    .message (measured (.int (-1)) (.int 200) "sketch-2") fun _ => .done,
    .setClock 0.2, .fire]

/-- The two sizes are called with, each with the identifier of its message. -/
theorem sizes_from_messages_fumbling :
    ∃ c₀, porch.build = .ok c₀ ∧ (⟨0, c₀⟩ : Session Float).FromMessages fumbling ∧
      ((⟨0, c₀⟩ : Session Float).sizeCalls fumbling).map Resize.Report.id
        = [some "sketch-1", some "sketch-2"] :=
  ⟨_, rfl, sizes_from_messages (o := porch) rfl 0 fumbling, by decide +kernel⟩

end Session

end Channel

end SketchHost
