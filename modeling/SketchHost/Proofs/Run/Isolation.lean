/-
**Attempts do not disturb each other.**

A run of a runner is a list of commands: attempts begin, injections end, messages come in, time passes,
timers run, and the runner is closed, in any order.  From the beginning of an attempt until the next
one begins, whatever a handler is called with was sent with the identifier of this attempt and after
its beginning.  So was every error that is recorded: it was sent as an error, says what its message says,
and has its lines mapped with the source and the script of this attempt.

* `Runner.Command`, `Runner.Session` — what can happen to a runner, and a runner with its clock;
* `Runner.OwnsErrors`, `Runner.ownsErrors_build` — the handler of the runner is there for errors alone,
  as it is in a runner that is built;
* `Attempt.IsFor` — an attempt at a source;
* `Runner.Brings`, `Runner.Reports` — a message tells what a handler is called with, or an error;
* `Runner.Isolated` — what holds from the beginning of an attempt on: nothing in the state comes from
  another one;
* `Runner.isolated_begin`, `Runner.Session.isolated_step` — an attempt begins so, and commands keep it;
* `Runner.Session.latest_attempt_isolated` — **nothing that was sent for another attempt gets through**.
-/

import SketchHost.Proofs.Channel.Identity
import SketchHost.Proofs.Channel.Session
import SketchHost.Proofs.Run.Errors

set_option relaxedAutoImplicit false
set_option autoImplicit false

namespace SketchHost

namespace Runner

variable {τ : Type}

/-! ### Commands -/

/-- What can happen to a runner: an attempt begins, an injection ends, a message comes in, time passes, a
loop begins or ceases to run around it, timers run, and the end. -/
inductive Command (τ : Type) where
  | start (id source : String)
  | finish (a : Attempt) (fault? : Option LoadFault)
  | message (e : Event) (react : Channel.Call → Channel.Reaction)
      (onError : RunError → Channel.Reaction)
  | setClock (now : τ)
  | runLoop (b : Bool)
  | fire
  | close

namespace Command

/-- The identifier of an attempt that begins. -/
def startedId? : Command τ → Option String
  | start id _ => some id
  | _ => none

/-- A message that comes in. -/
def event? : Command τ → Option Event
  | message e _ _ => some e
  | _ => none

end Command

/-- The identifiers of the attempts that begin in a run. -/
def startedIds (cs : List (Command τ)) : List String :=
  cs.filterMap Command.startedId?

theorem startedIds_cons_eq_nil {c : Command τ} {cs : List (Command τ)} :
    startedIds (c :: cs) = [] ↔ c.startedId? = none ∧ startedIds cs = [] := by
  simp [startedIds, List.filterMap_eq_nil_iff]

/-- The messages that come in during a run. -/
def events (cs : List (Command τ)) : List Event :=
  cs.filterMap Command.event?

/-- A runner and the reading of its clock. -/
structure Session (τ : Type) where
  now : τ
  runner : Runner τ

/-- What one command did: how an attempt ended, the calls of handlers, and the errors that were
recorded. -/
structure Trace where
  outcome : Option Outcome
  calls : List Channel.Call
  recorded : List RunError

namespace Session

variable [Resize.Clock τ]

/-- One command. -/
def step (s : Session τ) : Command τ → Session τ × Trace
  | .start id source =>
      match s.runner.begin id source with
      | (r, .ok _) => (⟨s.now, r⟩, ⟨none, [], []⟩)
      | (r, .error f) => (⟨s.now, r⟩, ⟨some (.refused f), [], []⟩)
  | .finish a fault? =>
      let (r, outcome) := s.runner.finish a fault?
      (⟨s.now, r⟩, ⟨some outcome, [], []⟩)
  | .message e react onError =>
      let h := s.runner.handle react onError s.now e
      (⟨s.now, h.after⟩, ⟨none, h.calls, h.recorded⟩)
  | .setClock now => (⟨now, s.runner⟩, ⟨none, [], []⟩)
  | .runLoop b => (⟨s.now, s.runner.runLoop b⟩, ⟨none, [], []⟩)
  | .fire =>
      let (r, _, calls) := s.runner.fire s.now
      (⟨s.now, r⟩, ⟨none, calls, []⟩)
  | .close => (⟨s.now, s.runner.close⟩, ⟨none, [], []⟩)

/-- The state after several commands. -/
def after (s : Session τ) (cs : List (Command τ)) : Session τ :=
  cs.foldl (fun s c => (s.step c).1) s

/-- The calls of handlers that several commands lead to. -/
def calls (s : Session τ) : List (Command τ) → List Channel.Call
  | [] => []
  | c :: rest => (s.step c).2.calls ++ calls (s.step c).1 rest

/-- The errors that several commands record, for which the callback for errors is called. -/
def recorded (s : Session τ) : List (Command τ) → List RunError
  | [] => []
  | c :: rest => (s.step c).2.recorded ++ recorded (s.step c).1 rest

@[simp] theorem after_nil (s : Session τ) : s.after [] = s := rfl

@[simp] theorem after_cons (s : Session τ) (c : Command τ) (cs : List (Command τ)) :
    s.after (c :: cs) = (s.step c).1.after cs := rfl

@[simp] theorem runner_start (s : Session τ) (id source : String) :
    (s.step (.start id source)).1.runner = (s.runner.begin id source).1 := by
  rw [step]
  split <;> simp [*]

@[simp] theorem calls_start (s : Session τ) (id source : String) :
    (s.step (.start id source)).2.calls = [] := by
  rw [step]
  split <;> rfl

@[simp] theorem recorded_start (s : Session τ) (id source : String) :
    (s.step (.start id source)).2.recorded = [] := by
  rw [step]
  split <;> rfl

end Session

/-- The end of an injection changes nothing of the runner. -/
@[simp] theorem after_finish (a : Attempt) (fault? : Option LoadFault) (r : Runner τ) :
    (r.finish a fault?).1 = r := by
  cases fault? with
  | none => rfl
  | some f =>
      rw [finish]
      cases r.isPast a <;> rfl

/-! ### The handler of the runner -/

/-- The handler of the runner is there for errors alone. -/
def OwnsErrors (r : Runner τ) : Prop :=
  ∀ t, r.channel.handler? t = some .runner → t = .error

/-- So it is in a new runner, whose channel did not have this handler before. -/
theorem ownsErrors_make {c : Channel τ} (hc : ∀ t, c.handler? t ≠ some .runner) (d : Dialect)
    (container : String) : (make c d container).OwnsErrors := by
  intro t ht
  rw [make, Channel.handler?_register] at ht
  split at ht
  · assumption
  · exact absurd ht (hc t)

/-- A runner that is built has the channel that is given, or one that is built, and its own handler. -/
theorem exists_make_of_build {s : Settings} {channel? : Option (Channel Float)}
    {symbols? : Option SymbolTable} {text? : String → Option String} {container : String}
    {r : Runner Float} (h : build s channel? symbols? text? container = .ok r) :
    ∃ c d, r = make c d container ∧
      (channel? = some c ∨ (Channel.Options.plain.withSettings s).build = .ok c) := by
  unfold build at h
  extract_lets fromChannel at h
  have hdialect : ∀ c, fromChannel c = .ok r → ∃ d, r = make c d container := by
    intro c hc
    cases symbols? <;>
    · obtain ⟨symbols, -, hc⟩ := Channel.exists_of_bind_eq_ok hc
      obtain ⟨d, -, hd⟩ := Channel.exists_of_bind_eq_ok hc
      exact ⟨d, (Except.ok.inj hd).symm⟩
  cases channel? with
  | some c =>
      obtain ⟨d, hd⟩ := hdialect c h
      exact ⟨c, d, hd, Or.inl rfl⟩
  | none =>
      obtain ⟨c, hc, h⟩ := Channel.exists_of_bind_eq_ok h
      obtain ⟨d, hd⟩ := hdialect c h
      refine ⟨c, d, hd, Or.inr ?_⟩
      cases hbuild : (Channel.Options.plain.withSettings s).build with
      | error f => simp [hbuild, Except.mapError] at hc
      | ok built => simpa [hbuild, Except.mapError] using hc

/-- So it is in every runner that is built, unless its channel is given and belongs to another one. -/
theorem ownsErrors_build {s : Settings} {channel? : Option (Channel Float)}
    {symbols? : Option SymbolTable} {text? : String → Option String} {container : String}
    {r : Runner Float} (h : build s channel? symbols? text? container = .ok r)
    (hgiven : ∀ c ∈ channel?, ∀ t, c.handler? t ≠ some .runner) : r.OwnsErrors := by
  obtain ⟨c, d, rfl, hc⟩ := exists_make_of_build h
  exact ownsErrors_make (hc.elim (hgiven c) Channel.handler?_ne_runner_of_build) d container

/-- It stays so as long as the handlers do. -/
theorem OwnsErrors.congr {r r' : Runner τ} (h : r.OwnsErrors)
    (hsame : r'.channel.handlers = r.channel.handlers) : r'.OwnsErrors := by
  intro t ht
  rw [Channel.handler?, hsame] at ht
  exact h t ht

end Runner

/-! ### Attempts -/

/-- An attempt at a source: its code and its script are those for the source. -/
structure Attempt.IsFor (d : Dialect) (container id source : String) (a : Attempt) : Prop where
  ofId : a.id = id
  ofSource : a.source = source
  prepared : Attempt.prepare d container id source = .ok (a.code, a.script)

/-- Its lines are mapped with the source and the lines before the code in its script. -/
theorem Attempt.IsFor.mapper_eq {d : Dialect} {container id source : String} {a : Attempt}
    (h : a.IsFor d container id source) : a.mapper = ⟨source.toList, a.script.linesBefore⟩ := by
  rw [Attempt.mapper, h.ofSource, Injection.Script.mapper]

namespace Runner

variable {τ : Type}

/-- Among some messages, one that carries an identifier tells what a handler is called with. -/
def Brings (sent : Event → Prop) (id : String) (call : Channel.Call) : Prop :=
  ∃ e t payload, sent e ∧ e.Carries id ∧ e.HasType (MessageType.name t) ∧ e.CopiedAs payload ∧
    call.Tells payload t

/-- Among some messages, one that carries an identifier is an error and says what a recorded error says,
whose lines are mapped with a source and with the lines before the code in the script for it. -/
def Reports (d : Dialect) (container id source : String) (sent : Event → Prop) (x : RunError) : Prop :=
  ∃ e payload code script, sent e ∧ e.Carries id ∧ e.HasType MessageType.error.name ∧
    e.CopiedAs payload ∧ Attempt.prepare d container id source = .ok (code, script) ∧
    x.Describes ⟨source.toList, script.linesBefore⟩ id payload

/-- What holds of a runner from the beginning of an attempt on, where `sent` are the messages since
then: only its messages are let through, and nothing in the state comes from another attempt. -/
structure Isolated (d : Dialect) (container id source : String) (sent : Event → Prop)
    (r : Runner τ) : Prop where
  owns : r.OwnsErrors
  expectedId : r.channel.expectedId = some id
  held : ∀ q ∈ r.channel.held?, Brings sent id (.resize q)
  current : ∀ a ∈ r.current, a.IsFor d container id source
  errors : ∀ x ∈ r.errors, Reports d container id source sent x

/-- An attempt begins without anything of those before it. -/
theorem isolated_begin (id source : String) (sent : Event → Prop) {r : Runner τ} (h : r.OwnsErrors) :
    (r.begin id source).1.Isolated r.dialect r.container id source sent := by
  unfold begin
  dsimp only
  split
  · next code script hp =>
      refine ⟨h.congr rfl, rfl, by simp [clear], ?_, by simp [clear]⟩
      intro a ha
      obtain rfl : _ = a := by simpa using ha
      exact ⟨rfl, rfl, hp⟩
  · exact ⟨h.congr rfl, rfl, by simp [clear], by simp, by simp [clear]⟩

@[simp] theorem errors_begin (id source : String) (r : Runner τ) :
    (r.begin id source).1.errors = [] := by
  unfold begin
  dsimp only
  split <;> rfl

variable {d : Dialect} {container id source : String} {sent : Event → Prop}

/-- A loop that begins or ceases to run changes nothing of what is held. -/
theorem Isolated.runLoop {r : Runner τ} (h : r.Isolated d container id source sent) (b : Bool) :
    (r.runLoop b).Isolated d container id source sent where
  owns := h.owns.congr rfl
  expectedId := h.expectedId
  held := fun q hq => h.held q (by rwa [Runner.runLoop, Channel.held?_runLoop] at hq)
  current := h.current
  errors := h.errors

/-- The end of a runner leaves its errors as they are. -/
theorem Isolated.close {r : Runner τ} (h : r.Isolated d container id source sent) :
    r.close.Isolated d container id source sent where
  owns := fun t ht => by simp [Runner.close, Channel.close, Channel.handler?] at ht
  expectedId := h.expectedId
  held := by simp [Runner.close]
  current := by simp
  errors := h.errors

/-- Timers give out what is held. -/
theorem Isolated.fire {r : Runner τ} (h : r.Isolated d container id source sent) (now : τ) :
    (r.fire now).1.Isolated d container id source sent
      ∧ ∀ call ∈ (r.fire now).2.2, Brings sent id call := by
  obtain ⟨hcalls, hheld⟩ := Channel.fire_spec now r.channel
  have honly := Channel.onlyThrottle_fire now r.channel
  refine ⟨⟨h.owns.congr honly.handlers_eq, honly.expectedId_eq.trans h.expectedId,
    fun q hq => h.held q (hheld q hq), h.current, h.errors⟩, fun call hcall => ?_⟩
  · obtain ⟨q, hq, rfl⟩ := hcalls call hcall
    exact h.held q hq

variable [Resize.Clock τ]

/-- A message gets through only if it carries the identifier of the attempt. -/
theorem Isolated.handle {r : Runner τ} (h : r.Isolated d container id source sent)
    (react : Channel.Call → Channel.Reaction) (onError : RunError → Channel.Reaction) (now : τ)
    {e : Event} (he : sent e) :
    (r.handle react onError now e).after.Isolated d container id source sent
      ∧ ∀ call ∈ (r.handle react onError now e).calls, Brings sent id call := by
  simp only [Runner.handle]
  have honly := Channel.onlyThrottle_handle (r.reaction react onError) now e r.channel
  rcases Channel.handle_cases (r.reaction react onError) now e r.channel with
    ⟨v, hv⟩ | ⟨a, haccept, hleads⟩
  · rw [hv]
    exact ⟨⟨h.owns.congr rfl, h.expectedId, h.held, h.current, by simpa using h.errors⟩, by simp⟩
  · obtain ⟨hpasses, htype, hhandler, hcopied⟩ := Channel.accept_eq_ok haccept
    have hcarries : e.Carries id := (hpasses .identity).2 id h.expectedId
    have hbrings : ∀ {call : Channel.Call}, call.Tells a.payload a.type → Brings sent id call :=
      fun htells => ⟨e, a.type, a.payload, he, hcarries, htype, hcopied, htells⟩
    refine ⟨⟨h.owns.congr honly.handlers_eq, honly.expectedId_eq.trans h.expectedId, fun q hq => ?_,
      h.current, fun x hx => ?_⟩, fun call hcall => hbrings (hleads.called call (List.mem_filter.1 hcall).1)⟩
    · rcases hleads.held q hq with hold | hnew
      · exact h.held q hold
      · exact hbrings hnew
    · rcases List.mem_append.1 hx with hold | hnew
      · exact h.errors x hold
      · obtain ⟨call, hcall, hx⟩ := List.mem_flatMap.1 hnew
        -- only the handler of the runner records errors, and it is called for errors alone
        cases call with
        | runner payload =>
            obtain ⟨attempt, hattempt, hmade⟩ :
                ∃ attempt ∈ r.current, RunError.ofPayload? attempt payload = some x := by
              simpa [recordedBy, Option.bind_eq_some_iff] using hx
            obtain rfl := (hleads.called _ hcall).payload_eq
            have herror : a.type = .error :=
              h.owns a.type (by rw [hhandler, hleads.ofRunner _ hcall])
            have hfor := h.current attempt hattempt
            have hdescribes := RunError.describes_of_ofPayload? hmade
            rw [hfor.mapper_eq, hfor.ofId] at hdescribes
            exact ⟨e, a.payload, _, _, he, hcarries, herror ▸ htype, hcopied, hfor.prepared, hdescribes⟩
        | _ => simp [recordedBy] at hx

/-! ### Runs -/

namespace Session

/-- A command that begins no attempt keeps the attempts apart. -/
theorem isolated_step {s : Session τ} (h : s.runner.Isolated d container id source sent)
    (c : Command τ) (hstart : c.startedId? = none) (hsent : ∀ e ∈ c.event?, sent e) :
    (s.step c).1.runner.Isolated d container id source sent
      ∧ ∀ call ∈ (s.step c).2.calls, Brings sent id call := by
  cases c with
  | start id' source' => simp [Command.startedId?] at hstart
  | finish a fault? => exact ⟨by simpa [step] using h, by simp [step]⟩
  | message e react onError => exact h.handle react onError s.now (hsent e rfl)
  | setClock now => exact ⟨h, by simp [step]⟩
  | runLoop b => exact ⟨h.runLoop b, by simp [step]⟩
  | fire => exact h.fire s.now
  | close => exact ⟨h.close, by simp [step]⟩

/-- A run in which no attempt begins keeps the attempts apart, by induction on its commands. -/
theorem isolated_after {s : Session τ} (h : s.runner.Isolated d container id source sent)
    (cs : List (Command τ)) (hstart : startedIds cs = []) (hsent : ∀ e ∈ events cs, sent e) :
    (s.after cs).runner.Isolated d container id source sent
      ∧ ∀ call ∈ s.calls cs, Brings sent id call := by
  induction cs generalizing s with
  | nil => exact ⟨h, by simp [calls]⟩
  | cons c rest ih =>
      obtain ⟨hnone, hrest⟩ := startedIds_cons_eq_nil.1 hstart
      obtain ⟨hstep, hcalls⟩ := isolated_step h c hnone fun e he =>
        hsent e (List.mem_filterMap.2 ⟨c, List.mem_cons_self, he⟩)
      obtain ⟨hafter, hlater⟩ := ih hstep hrest fun e he => by
        obtain ⟨c', hc', he'⟩ := List.mem_filterMap.1 he
        exact hsent e (List.mem_filterMap.2 ⟨c', List.mem_cons_of_mem _ hc', he'⟩)
      refine ⟨hafter, fun call hcall => ?_⟩
      rcases List.mem_append.1 hcall with hc | hc
      · exact hcalls call hc
      · exact hlater call hc

/-- Every command leaves the handler of the runner where it is, or takes it away. -/
theorem ownsErrors_step {s : Session τ} (h : s.runner.OwnsErrors) (c : Command τ) :
    (s.step c).1.runner.OwnsErrors := by
  cases c with
  | start id source =>
      rw [runner_start]
      exact (isolated_begin id source (fun _ => True) h).owns
  | finish a fault? => simpa [step] using h
  | message e react onError => exact h.congr (Channel.onlyThrottle_handle ..).handlers_eq
  | fire => exact h.congr (Channel.onlyThrottle_fire s.now s.runner.channel).handlers_eq
  | close => exact fun t ht => by simp [step, Runner.close, Channel.close, Channel.handler?] at ht
  | _ => exact h.congr rfl

/-- So does every run. -/
theorem ownsErrors_after {s : Session τ} (h : s.runner.OwnsErrors) (cs : List (Command τ)) :
    (s.after cs).runner.OwnsErrors := by
  induction cs generalizing s with
  | nil => exact h
  | cons c rest ih => exact ih (ownsErrors_step h c)

/-- How sketches are converted, and the element that they draw into, never change. -/
theorem settings_step (s : Session τ) (c : Command τ) :
    (s.step c).1.runner.dialect = s.runner.dialect
      ∧ (s.step c).1.runner.container = s.runner.container := by
  cases c with
  | start id source =>
      rw [runner_start, begin]
      dsimp only
      split <;> exact ⟨rfl, rfl⟩
  | finish a fault? => simp [step]
  | _ => exact ⟨rfl, rfl⟩

theorem settings_after (s : Session τ) (cs : List (Command τ)) :
    (s.after cs).runner.dialect = s.runner.dialect
      ∧ (s.after cs).runner.container = s.runner.container := by
  induction cs generalizing s with
  | nil => exact ⟨rfl, rfl⟩
  | cons c rest ih =>
      obtain ⟨hd, hc⟩ := ih (s.step c).1
      exact ⟨hd.trans (settings_step s c).1, hc.trans (settings_step s c).2⟩

/-- While no attempt begins, the errors are those that were there and those that are recorded. -/
theorem errors_after (s : Session τ) (cs : List (Command τ)) (hstart : startedIds cs = []) :
    (s.after cs).runner.errors = s.runner.errors ++ s.recorded cs := by
  induction cs generalizing s with
  | nil => simp [recorded]
  | cons c rest ih =>
      obtain ⟨hnone, hrest⟩ := startedIds_cons_eq_nil.1 hstart
      have hstep : (s.step c).1.runner.errors = s.runner.errors ++ (s.step c).2.recorded := by
        cases c with
        | start id source => simp [Command.startedId?] at hnone
        | finish a fault? => simp [step]
        | message e react onError => rfl
        | _ => exact (List.append_nil _).symm
      rw [after_cons, ih _ hrest, hstep, recorded, List.append_assoc]

/-- A message that was sent for an attempt: it came in after the beginning, with the identifier of the
attempt and of none before it. -/
structure SentFor (id : String) (before later : List (Command τ)) (e : Event) : Prop where
  later : e ∈ events later
  own : e.Carries id
  notOld : ∀ old ∈ startedIds before, ¬ e.Carries old

/-- **Nothing that was sent for another attempt gets through.**  A runner whose handler is there for errors
alone, as it is in every runner that is built, is met by any commands.  Then an attempt begins with an
identifier of its own, and no other one begins later.  Every call of a handler has this
identifier and tells what a message for this attempt says.  Every error that is recorded comes from such a
message as well, which was sent as an error: it says what the payload of this reports, under the identifier
of the attempt, and its lines are mapped with the source of the attempt and with the lines before the code
in its script.  The errors of the runner are those that were recorded since then. -/
theorem latest_attempt_isolated (s : Session τ) (hown : s.runner.OwnsErrors)
    (before later : List (Command τ)) (id source : String) (hfresh : id ∉ startedIds before)
    (hlatest : startedIds later = []) :
    let begun := s.after before
    let run := .start id source :: later
    (∀ call ∈ begun.calls run, call.id? = some id ∧
      ∃ e t payload, SentFor id before later e ∧ e.HasType (MessageType.name t) ∧ e.CopiedAs payload ∧
        call.Tells payload t) ∧
    (∀ x ∈ (begun.after run).runner.errors,
      ∃ e payload code script, SentFor id before later e ∧ e.HasType MessageType.error.name ∧
        e.CopiedAs payload ∧
        Attempt.prepare s.runner.dialect s.runner.container id source = .ok (code, script) ∧
        x.Describes ⟨source.toList, script.linesBefore⟩ id payload) ∧
    begun.recorded run = (begun.after run).runner.errors := by
  intro begun run
  obtain ⟨hd, hc⟩ := settings_after s before
  have hbegun := isolated_begin id source (· ∈ events later) (ownsErrors_after hown before)
  rw [hd, hc, ← runner_start] at hbegun
  obtain ⟨hafter, hcalls⟩ := isolated_after hbegun later hlatest fun _ he => he
  have hsent : ∀ {e : Event}, e ∈ events later → e.Carries id → SentFor id before later e := by
    refine fun he hid => ⟨he, hid, fun old hold hcarries => hfresh ?_⟩
    rwa [Option.some.inj (hid.1.symm.trans hcarries.1)]
  refine ⟨fun call hcall => ?_, fun x hx => ?_, ?_⟩
  · rw [calls, calls_start, List.nil_append] at hcall
    obtain ⟨e, t, payload, he, hid, htype, hcopied, htells⟩ := hcalls call hcall
    refine ⟨htells.id?_eq ?_, e, t, payload, hsent he hid, htype, hcopied, htells⟩
    rw [hcopied.idOf_eq, Channel.carries_iff.1 hid]
  · obtain ⟨e, payload, code, script, he, hid, hrest⟩ := hafter.errors x hx
    exact ⟨e, payload, code, script, hsent he hid, hrest⟩
  · rw [after_cons, errors_after _ later hlatest, recorded, runner_start, recorded_start,
      errors_begin]

/-! ### Two attempts -/

/-- A channel with a callback for every type of messages. -/
def listening : Channel Float :=
  ⟨["http://localhost"], .fixed none, none, false, MessageType.all.map fun t => (t, .callback), false,
    some (.make 0.1 .given)⟩

/-- A message of a frame, sent for an attempt. -/
def sending (id type : String) (fields : Fields) : Command Float :=
  .message ⟨"http://localhost", none,
      .ofValue (.record (("type", .text type) :: ("sketchInstanceId", .text id) :: fields))⟩
    (fun _ => .done) fun _ => .done

/-- The report of a square canvas, sent for an attempt. -/
def sendingSquare (id : String) (side : Int) : Command Float :=
  sending id "resize" [("width", .int side), ("height", .int side)]

/-- A first attempt, which is over while a report of its size is held. -/
def firstAttempt : List (Command Float) :=
  [.start "sketch-1" "draw();", sendingSquare "sketch-1" 1, sendingSquare "sketch-1" 2]

/-- Messages of both attempts after the second one has begun, and a timer at the end. -/
def secondAttempt : List (Command Float) :=
  [sendingSquare "sketch-1" 3, sending "sketch-1" "error" [("message", .text "late")],
    sending "sketch-2" "ready" [], sendingSquare "sketch-2" 4,
    sending "sketch-2" "error" [("message", .text "on line 70")], .setClock 0.2, .fire]

/-- A new runner. -/
def opened : Session Float :=
  ⟨0.0, .make listening .standard "box"⟩

theorem ownsErrors_opened : opened.runner.OwnsErrors := by
  have hlistening : ∀ t, listening.handler? t ≠ some .runner := fun t => by cases t <;> decide
  exact ownsErrors_make hlistening .standard "box"

/-- The second attempt meets two calls and one error, all of its own. -/
theorem second_attempt_isolated :
    (opened.runner.OwnsErrors ∧ "sketch-2" ∉ startedIds firstAttempt ∧ startedIds secondAttempt = []) ∧
    (((opened.after firstAttempt).calls (.start "sketch-2" "line();" :: secondAttempt)).length = 2 ∧
      ((opened.after firstAttempt).after
        (.start "sketch-2" "line();" :: secondAttempt)).runner.errors.length = 1) ∧
    (∀ call ∈ (opened.after firstAttempt).calls (.start "sketch-2" "line();" :: secondAttempt),
      call.id? = some "sketch-2") ∧
    ∀ x ∈ ((opened.after firstAttempt).after
        (.start "sketch-2" "line();" :: secondAttempt)).runner.errors, x.id = "sketch-2" := by
  have hfresh : "sketch-2" ∉ startedIds firstAttempt := by decide
  have hlatest : startedIds secondAttempt = [] := by decide
  have hcount : ((opened.after firstAttempt).calls
      (.start "sketch-2" "line();" :: secondAttempt)).length = 2 := by
    decide +kernel
  have hone : ((opened.after firstAttempt).after
        (.start "sketch-2" "line();" :: secondAttempt)).runner.errors.length = 1 := by
    decide +kernel
  obtain ⟨hcalls, herrors, -⟩ :=
    latest_attempt_isolated opened ownsErrors_opened firstAttempt secondAttempt "sketch-2" "line();"
      hfresh hlatest
  refine ⟨⟨ownsErrors_opened, hfresh, hlatest⟩, ⟨hcount, hone⟩, fun call hcall => (hcalls call hcall).1,
    fun x hx => ?_⟩
  obtain ⟨_, _, _, _, _, _, _, _, hdescribes⟩ := herrors x hx
  exact hdescribes.ofId

end Session

end Runner

end SketchHost
