/-
**Which errors get through.**

An error that the running sketch reports goes through several steps, each of which may fail: its payload
may be no report, what is shown of it may be such that it cannot be written, its lines may be such that
they cannot be mapped, and the callback for errors is user code, which may raise anything.  Here the
handler of the runner is taken step by step.  An error is in the list before the callback runs, so nothing
that fails later loses it: the list has it once, and the callback is called with it once.  Only where the
payload is no report and a whole number in what is shown of it is too long, the handler breaks down before,
and the error is lost.

* `Runner.Scene`, `Runner.ErrorCode` — a runner with the calls of its callback for errors so far, and
  what the callback does;
* `Runner.Scene.takeReport`, `Runner.Scene.receive` — the handler of the runner, and a message, step by
  step;
* `Runner.Scene.receive_eq` — the steps come to what the runner's own definition says;
* `Runner.Scene.KeepsError` — an error is recorded, and the callback is called with it;
* `Runner.Scene.keepsError_iff` — **an error that passes the guards is kept if and only if there is no
  attempt, or its payload is a report or can be written**.
-/

import SketchHost.Proofs.Channel.Robustness
import SketchHost.Proofs.Run.Isolation

set_option relaxedAutoImplicit false
set_option autoImplicit false

namespace SketchHost

namespace Runner

open Channel (Raised Reaction Verdict verdictOf verdictOn verdictOn_resultOf)

/-! ### The handler, step by step -/

/-- A call of the callback for errors: the error, and the errors that were recorded by then. -/
structure ErrorCall where
  error : RunError
  recorded : List RunError
deriving DecidableEq, Repr

/-- What the callback for errors does: user code goes by the calls before and by the error. -/
abbrev ErrorCode := List ErrorCall → RunError → Reaction

/-- A runner, and the calls of its callback for errors so far. -/
structure Scene (τ : Type) where
  runner : Runner τ
  calls : List ErrorCall

namespace Scene

variable {τ : Type}

/-- Puts an error into the list. -/
def record (x : RunError) (s : Scene τ) : Scene τ :=
  { s with runner := { s.runner with errors := s.runner.errors ++ [x] } }

/-- Calls the callback, which may raise something. -/
def callBack (code : ErrorCode) (x : RunError) (s : Scene τ) : Except Raised Unit × Scene τ :=
  (Channel.Operation.resultOf (code s.calls x), { s with calls := s.calls ++ [⟨x, s.runner.errors⟩] })

/-- The handler of the runner.  Without an attempt there is nothing to do.  Else the payload is read as
a report, or what is shown of it is taken for the message of one; the text of the report is written, and
its lines are mapped, or left as they are; the error is recorded; and the callback is called with it.  What
cannot be written breaks the handler off. -/
def takeReport (code : ErrorCode) (payload : Fields) (s : Scene τ) : Except Raised Unit × Scene τ :=
  match s.runner.current with
  | none => (.ok (), s)
  | some a =>
      match RunError.reportOf? payload with
      | none => (.error .fault, s)
      | some report =>
          match report.text? with
          | none => (.error .fault, s)
          | some text =>
              let shown := match a.mapper.mapMessage text with
                | .ok mapped => mapped
                | .error _ => text
              let error : RunError := ⟨report.headline, shown, report.stack, a.id⟩
              (s.record error).callBack code error

/-- The state after a step of the channel. -/
def withChannel (c : Channel τ) (s : Scene τ) : Scene τ :=
  { s with runner := { s.runner with channel := c } }

/-- The steps of the handler give the error that is made of the payload, if there is one. -/
theorem takeReport_eq (code : ErrorCode) (payload : Fields) (s : Scene τ) :
    s.takeReport code payload =
      match s.runner.current with
      | none => (.ok (), s)
      | some a =>
          match RunError.ofPayload? a payload with
          | none => (.error .fault, s)
          | some x => (s.record x).callBack code x := by
  rw [takeReport]
  cases s.runner.current with
  | none => rfl
  | some a =>
      simp only [RunError.ofPayload?]
      cases RunError.reportOf? payload with
      | none => rfl
      | some report =>
          dsimp only
          cases report.text? <;> rfl

/-- A payload that no error can be made of breaks the handler off. -/
theorem takeReport_of_none {s : Scene τ} {code : ErrorCode} {payload : Fields} {a : Attempt}
    (ha : s.runner.current = some a) (hnone : RunError.ofPayload? a payload = none) :
    (verdictOn .error (s.takeReport code payload).1, (s.takeReport code payload).2)
      = (.threw .error, s) := by
  rw [takeReport_eq, ha]
  simp [hnone, verdictOn, Channel.Operation.verdictFor]

variable [Resize.Clock τ]

/-- One message: what became of it, and the scene after it.  What the handler of the runner raises is
caught by the channel. -/
def receive (react : Channel.Call → Reaction) (code : ErrorCode) (now : τ) (e : Event)
    (s : Scene τ) : Verdict × Scene τ :=
  if s.runner.channel.closed then (.ignored, s)
  else
    match s.runner.channel.accept e with
    | .error d => (.dropped d, s)
    | .ok a =>
        match a.handler with
        | .runner =>
            let (result, s) := s.takeReport code a.payload
            (verdictOn a.type result, s)
        | _ =>
            let h := s.runner.channel.dispatch react now a
            (h.verdict, s.withChannel h.after)

/-! ### The runner's own definition -/

/-- A handler that does not belong to the runner is called as if there were no runner, and records no
error. -/
theorem dispatch_foreign (react : Channel.Call → Reaction) (onError : RunError → Reaction) (now : τ)
    (r : Runner τ) {a : Channel.Accepted} (ha : a.handler ≠ .runner) :
    r.channel.dispatch (r.reaction react onError) now a = r.channel.dispatch react now a
      ∧ (r.channel.dispatch react now a).calls.flatMap r.recordedBy = [] := by
  obtain ⟨type, handler, payload⟩ := a
  cases handler with
  | runner => exact absurd rfl ha
  | named name => exact ⟨rfl, rfl⟩
  | callback =>
      simp only [Channel.dispatch]
      unfold Channel.callBack
      cases type with
      | resize =>
          cases Message.size payload with
          | error f => cases f <;> exact ⟨rfl, rfl⟩
          | ok size =>
              cases r.channel.throttle with
              | none => exact ⟨rfl, rfl⟩
              | some t => exact ⟨rfl, by simp [recordedBy, List.flatMap_map]⟩
      | ready => cases Message.notice payload <;> exact ⟨rfl, rfl⟩
      | executionComplete => cases Message.notice payload <;> exact ⟨rfl, rfl⟩
      | error => cases ErrorReport.ofFields payload <;> exact ⟨rfl, rfl⟩

/-- **The steps come to what the runner's own definition says**: the callback is called once for every
error that is recorded, after it is. -/
theorem receive_eq (react : Channel.Call → Reaction) (code : ErrorCode) (now : τ) (e : Event)
    (s : Scene τ) :
    s.receive react code now e =
      let h := s.runner.handle react (code s.calls) now e
      (h.verdict, ⟨h.after, s.calls ++ h.recorded.map fun x => ⟨x, h.after.errors⟩⟩) := by
  obtain ⟨⟨channel, dialect, container, count, current, errors⟩, calls⟩ := s
  simp only [receive, handle, Channel.handle]
  by_cases hclosed : channel.closed = true
  · simp [hclosed]
  · rw [if_neg hclosed, if_neg hclosed]
    cases channel.accept e with
    | error d => simp
    | ok accepted =>
        dsimp only
        by_cases hrunner : accepted.handler = .runner
        · simp only [hrunner, takeReport_eq, Channel.dispatch, Channel.callOnce, reaction]
          cases current with
          | none => simp [recordedBy, verdictOn, verdictOf]
          | some a =>
              dsimp only
              cases hmade : RunError.ofPayload? a accepted.payload with
              | none => simp [recordedBy, hmade, verdictOn, verdictOf, Channel.Operation.verdictFor]
              | some x => simp [callBack, record, recordedBy, hmade]
        · obtain ⟨hsame, hnone⟩ := dispatch_foreign react (code calls) now
            ⟨channel, dialect, container, count, current, errors⟩ hrunner
          rw [hsame, hnone]
          split
          · next heq => exact absurd heq hrunner
          · simp [withChannel]

/-! ### Errors that come in -/

/-- An error that comes in is kept.  During an attempt one error is recorded, which says what the payload
reports, and the callback is called once, with this error and after it is recorded; how it comes back
decides no more than the verdict.  Without an attempt nothing happens. -/
structure KeepsError (react : Channel.Call → Reaction) (code : ErrorCode) (now : τ) (e : Event)
    (payload : Fields) (s : Scene τ) : Prop where
  recorded : ∀ a, s.runner.current = some a → ∃ x : RunError, x.Describes a.mapper a.id payload ∧
    s.receive react code now e =
      (verdictOf .error (code s.calls x),
        ⟨{ s.runner with errors := s.runner.errors ++ [x] },
          s.calls ++ [⟨x, s.runner.errors ++ [x]⟩]⟩)
  idle : s.runner.current = none → s.receive react code now e = (.handled, s)

/-- An error that is kept during an attempt makes the list longer. -/
theorem KeepsError.receive_ne {react : Channel.Call → Reaction} {code : ErrorCode} {now : τ} {e : Event}
    {payload : Fields} {s : Scene τ} (h : s.KeepsError react code now e payload) {a : Attempt}
    (ha : s.runner.current = some a) (verdict : Verdict) :
    s.receive react code now e ≠ (verdict, s) := by
  obtain ⟨x, -, hreceived⟩ := h.recorded a ha
  intro hsame
  have herrors := congrArg (fun result => result.2.runner.errors.length) (hreceived.symm.trans hsame)
  simp at herrors

/-- An error that passes the guards goes to the handler of the runner. -/
theorem receive_of_passes (s : Scene τ) (react : Channel.Call → Reaction) (code : ErrorCode) (now : τ)
    {e : Event} {payload : Fields} (hopen : s.runner.channel.closed = false)
    (hhandler : s.runner.channel.handler? .error = some .runner)
    (htype : e.HasType MessageType.error.name) (hpasses : ∀ g, s.runner.channel.Passes e g)
    (hcopied : e.CopiedAs payload) :
    s.receive react code now e =
      (verdictOn .error (s.takeReport code payload).1, (s.takeReport code payload).2) := by
  rcases s.runner.channel.isGuarded e with
    ⟨t, h, payload', -, hname, hregistered, hcopied', haccept⟩ | ⟨g, -, hfirst, -⟩
  · obtain rfl : t = .error := MessageType.name_injective (Channel.hasType_unique hname htype)
    obtain rfl : h = .runner := Option.some.inj (hregistered.symm.trans hhandler)
    obtain rfl : payload' = payload := hcopied'.unique hcopied
    simp [receive, hopen, haccept]
  · exact absurd (hpasses g) hfirst.fails

/-- **An error that passes the guards is kept if and only if there is no attempt, or its payload is a
report or can be written.**  This holds in every state of a runner whose channel is open and has the
runner's own handler for errors, however the callback comes back, as long as no number under the name for
lines is too long.  An error that is not kept is lost: the handler breaks down, nothing is recorded, and the
callback is not called.  Either way this is what the runner's own definition says. -/
theorem keepsError_iff (s : Scene τ) (react : Channel.Call → Reaction) (code : ErrorCode) (now : τ)
    {e : Event} {payload : Fields} (hopen : s.runner.channel.closed = false)
    (hhandler : s.runner.channel.handler? .error = some .runner)
    (htype : e.HasType MessageType.error.name) (hpasses : ∀ g, s.runner.channel.Passes e g)
    (hcopied : e.CopiedAs payload)
    (hline : ∀ n, Fields.find? "lineno" payload = some (.int n) → Text.isShort n = true) :
    (s.KeepsError react code now e payload ↔
      s.runner.current = none ∨ RunError.IsLegible payload) ∧
    (¬ s.KeepsError react code now e payload → s.receive react code now e = (.threw .error, s)) ∧
    let h := s.runner.handle react (code s.calls) now e
    s.receive react code now e =
      (h.verdict, ⟨h.after, s.calls ++ h.recorded.map fun x => ⟨x, h.after.errors⟩⟩) := by
  have htaken := receive_of_passes s react code now hopen hhandler htype hpasses hcopied
  rw [← and_assoc]
  refine ⟨?_, receive_eq react code now e s⟩
  cases hcurrent : s.runner.current with
  | none =>
      have hidle : s.receive react code now e = (.handled, s) := by
        rw [htaken, takeReport_eq, hcurrent]
        rfl
      have hkept : s.KeepsError react code now e payload := ⟨by simp [hcurrent], fun _ => hidle⟩
      exact ⟨iff_of_true hkept (Or.inl rfl), fun hlost => absurd hkept hlost⟩
  | some a =>
      have hlegible := RunError.isSome_ofPayload?_iff a hline
      cases hmade : RunError.ofPayload? a payload with
      | none =>
          have hlost := htaken.trans (takeReport_of_none hcurrent hmade)
          refine ⟨iff_of_false (fun hkept => hkept.receive_ne hcurrent _ hlost) ?_, fun _ => hlost⟩
          simp [← hlegible, hmade]
      | some x =>
          have hkept : s.KeepsError react code now e payload := by
            refine ⟨fun b hb => ⟨x, ?_, ?_⟩, by simp [hcurrent]⟩
            · obtain rfl := Option.some.inj (hcurrent.symm.trans hb)
              exact RunError.describes_of_ofPayload? hmade
            · rw [htaken, takeReport_eq, hcurrent]
              simp [hmade, callBack, record]
          exact ⟨iff_of_true hkept (Or.inr (hlegible.1 (by simp [hmade]))),
            fun hlost => absurd hkept hlost⟩

/-- A runner during its first attempt. -/
def attempting : Scene Float :=
  ⟨(Session.opened.after [.start "sketch-1" "draw();"]).runner, []⟩

/-- What an error says whose line is a text that is no number. -/
def misshapen (message : Value) : Fields :=
  [("type", .text "error"), ("sketchInstanceId", .text "sketch-1"), ("message", message),
    ("lineno", .text "x")]

/-- Such an error. -/
def misreported (message : Value) : Event :=
  ⟨"http://localhost", none, .ofValue (.record (misshapen message))⟩

theorem copiedAs_misreported (message : Value) :
    (misreported message).CopiedAs (misshapen message) :=
  .same rfl

/-- It carries the identifier of the attempt. -/
theorem carries_misreported (message : Value) : (misreported message).Carries "sketch-1" :=
  ⟨rfl, by decide⟩

/-- It passes the guards, whatever its message is. -/
theorem passes_misreported (message : Value) (g : Channel.Guard) :
    attempting.runner.channel.Passes (misreported message) g := by
  have hid : attempting.runner.channel.expectedId = some "sketch-1" := by decide +kernel
  cases g with
  | origin =>
      have hallowed : Origin.isAllowed "http://localhost" attempting.runner.channel.allowed = true := by
        decide +kernel
      exact Origin.isAllowed_iff.1 hallowed
  | sender =>
      have hsender : attempting.runner.channel.sender.frame = none := by decide +kernel
      exact fun frame hframe => by simp [hsender] at hframe
  | shape => exact ⟨_, rfl⟩
  | identity =>
      refine ⟨fun _ => ⟨_, carries_misreported message⟩, fun id hexpected => ?_⟩
      rw [hid] at hexpected
      exact Option.some.inj hexpected ▸ carries_misreported message
  | handler => exact ⟨.error, .runner, rfl, by decide +kernel⟩
  | copy => exact ⟨_, copiedAs_misreported message⟩

/-- An error whose message is a number is recorded, although its payload is no report and the callback
breaks down. -/
theorem keepsError_iff_misshapen :
    (attempting.runner.channel.closed = false ∧
      attempting.runner.channel.handler? .error = some .runner ∧
      (misreported (.int 7)).HasType MessageType.error.name ∧
      (∀ g, attempting.runner.channel.Passes (misreported (.int 7)) g) ∧
      (misreported (.int 7)).CopiedAs (misshapen (.int 7)) ∧
      ∀ n, Fields.find? "lineno" (misshapen (.int 7)) = some (.int n) → Text.isShort n = true) ∧
    attempting.KeepsError (fun _ => .done) (fun _ _ => .raised) 0.0 (misreported (.int 7))
      (misshapen (.int 7)) ∧
    (attempting.receive (fun _ => .done) (fun _ _ => .raised) 0.0 (misreported (.int 7))).1
      = .threw .error ∧
    (attempting.receive (fun _ => .done) (fun _ _ => .raised) 0.0 (misreported (.int 7))).2.calls =
      [⟨⟨"7", "7".toList, none, "sketch-1"⟩, [⟨"7", "7".toList, none, "sketch-1"⟩]⟩] := by
  have hopen : attempting.runner.channel.closed = false := by decide +kernel
  have hhandler : attempting.runner.channel.handler? .error = some .runner := by decide +kernel
  have hline : ∀ n, Fields.find? "lineno" (misshapen (.int 7)) = some (.int n) →
      Text.isShort n = true := by
    simp [misshapen, Fields.find?]
  have hpasses := passes_misreported (.int 7)
  have hcopied := copiedAs_misreported (.int 7)
  have htype : (misreported (.int 7)).HasType MessageType.error.name := rfl
  refine ⟨⟨hopen, hhandler, htype, hpasses, hcopied, hline⟩, ?_, by decide +kernel, by decide +kernel⟩
  refine (keepsError_iff attempting (fun _ => .done) (fun _ _ => .raised) 0.0 hopen hhandler htype
    hpasses hcopied hline).1.2 (Or.inr (Or.inr ?_))
  decide +kernel

/-- The number whose digits are one more than are ever written. -/
def endless : Value :=
  .int (.ofNat (Nat.pow 10 Text.maxDigits))

/-- An error that passes the guards is lost during an attempt if its message is such a number: nothing is
recorded, and the callback is not called. -/
theorem not_keepsError_endless :
    (∀ g, attempting.runner.channel.Passes (misreported endless) g) ∧
    attempting.runner.current.isSome = true ∧
    ¬ attempting.KeepsError (fun _ => .done) (fun _ _ => .done) 0.0 (misreported endless)
      (misshapen endless) ∧
    attempting.receive (fun _ => .done) (fun _ _ => .done) 0.0 (misreported endless)
      = (.threw .error, attempting) := by
  have hcurrent : attempting.runner.current.isSome = true := by decide +kernel
  obtain ⟨a, ha⟩ := Option.isSome_iff_exists.1 hcurrent
  have hlost : attempting.receive (fun _ => .done) (fun _ _ => .done) 0.0 (misreported endless)
      = (.threw .error, attempting) := by
    have hopen : attempting.runner.channel.closed = false := by decide +kernel
    have hhandler : attempting.runner.channel.handler? .error = some .runner := by decide +kernel
    have hnone : RunError.reportOf? (misshapen endless) = none := by decide +kernel
    have htype : (misreported endless).HasType MessageType.error.name := rfl
    rw [receive_of_passes attempting _ _ _ hopen hhandler htype (passes_misreported endless)
      (copiedAs_misreported endless)]
    exact takeReport_of_none ha (by simp [RunError.ofPayload?, hnone])
  exact ⟨passes_misreported endless, hcurrent, fun hkept => hkept.receive_ne ha _ hlost, hlost⟩

end Scene

end Runner

end SketchHost
