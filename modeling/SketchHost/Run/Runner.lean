/-
**The runner.**

A runner runs sketches one attempt at a time.  A new attempt resets the channel and lets only messages
with its own identifier through, so nothing of an earlier attempt counts any more.  The injection of a
script is no business of the runner: it begins an attempt and is told later how the injection ended.

* `Runner` — the state of a runner;
* `Runner.begin` — a new attempt;
* `Runner.finish` — the end of an injection, with the outcome of its attempt;
* `Runner.handle` — a message, `Runner.fire` — the timers, `Runner.close` — the end;
* `RunError` — an error that the running sketch reported.
-/

import SketchHost.Channel.Build
import SketchHost.Run.Attempt
import SketchHost.Symbols.Source

set_option relaxedAutoImplicit false
set_option autoImplicit false

namespace SketchHost

/-! ### Errors of a running sketch -/

/-- An error that the running sketch reported; `shown` has its lines mapped to the source, and `id` is
the identifier of the attempt. -/
structure RunError where
  message : String
  shown : List Char
  stack : Option String
  id : String
deriving DecidableEq, Repr

namespace RunError

/-- What is shown of a payload that is no report of an error: what it says under `message`, or else all
of it. -/
def rawValue (payload : Fields) : Value :=
  ((Fields.find? "message" payload).getD .null).orElse (.record payload)

/-- The message of a payload that is no report of an error, if it can be written out. -/
def rawMessage? (payload : Fields) : Option String :=
  (rawValue payload).display?.map String.ofList

/-- The report in a payload.  A payload of another shape becomes the message of one. -/
def reportOf? (payload : Fields) : Option ErrorReport :=
  match ErrorReport.ofFields payload with
  | .ok r => some r
  | .error _ => (rawMessage? payload).map .ofMessage

/-- The error in a payload that came during an attempt, if its text can be written. -/
def ofPayload? (a : Attempt) (payload : Fields) : Option RunError :=
  match reportOf? payload with
  | none => none
  | some r => r.text?.map fun text => ⟨r.headline, a.shownText text, r.stack, a.id⟩

end RunError

/-! ### States -/

/-- The state of a runner: its channel, how it converts sketches, the element that a sketch draws
into, the number of attempts so far, the attempt that counts, and its errors. -/
structure Runner (τ : Type) where
  channel : Channel τ
  dialect : Dialect
  container : String
  count : Nat
  current : Option Attempt
  errors : List RunError

namespace Runner

variable {τ : Type}

/-- A runner before its first attempt, which handles errors itself. -/
def make (c : Channel τ) (d : Dialect) (container : String) : Runner τ :=
  ⟨c.register .error .runner, d, container, 0, none, []⟩

/-! ### Attempts -/

/-- The state at the start of an attempt, before its source is looked at. -/
def clear (id : String) (r : Runner τ) : Runner τ :=
  { r with
    channel := r.channel.reset.expectId (some id)
    count := r.count + 1
    errors := [] }

/-- Begins an attempt: the state after it, and the attempt whose script has to be injected, or why
there is none. -/
def begin (id source : String) (r : Runner τ) : Runner τ × Except Dialect.Failure Attempt :=
  let r := r.clear id
  match Attempt.prepare r.dialect r.container id source with
  | .ok (code, script) =>
      let a : Attempt := ⟨r.count, id, source, code, script⟩
      ({ r with current := some a }, .ok a)
  | .error f => ({ r with current := none }, .error f)

/-- Whether an attempt does not count any more. -/
def isPast (a : Attempt) (r : Runner τ) : Bool :=
  r.current.all fun b => b.number != a.number

/-- The end of an injection, whose script was loaded or not: the state after it, and the outcome of the
attempt. -/
def finish (a : Attempt) (fault? : Option LoadFault) (r : Runner τ) : Runner τ × Outcome :=
  match fault? with
  | none => (r, .loaded a.code (r.isPast a))
  | some f =>
      if r.isPast a then (r, .failedLate) else (r, .failed a.code (a.shownText f.text))

/-- A loop begins or ceases to run around the runner. -/
def runLoop (b : Bool) (r : Runner τ) : Runner τ :=
  { r with channel := r.channel.runLoop b }

/-- The end of the runner, and of its channel. -/
def close (r : Runner τ) : Runner τ :=
  { r with current := none, channel := r.channel.close }

@[simp] theorem current_close (r : Runner τ) : r.close.current = none := rfl

@[simp] theorem count_begin (id source : String) (r : Runner τ) :
    (r.begin id source).1.count = r.count + 1 := by
  unfold begin
  dsimp only
  split <;> rfl

/-! ### Messages -/

/-- What a message led to: the state after it, what became of it, the calls of handlers, and the
errors that were recorded. -/
structure Handled (τ : Type) where
  after : Runner τ
  verdict : Channel.Verdict
  calls : List Channel.Call
  recorded : List RunError

/-- The errors that a call of the handler of the runner records: one, if there is an attempt that
counts and the payload can be written. -/
def recordedBy (r : Runner τ) : Channel.Call → List RunError
  | .runner payload => (r.current.bind fun a => RunError.ofPayload? a payload).toList
  | _ => []

/-- How the handler of the runner comes back: as the callback for the error does.  It breaks down before
that if the payload cannot be written.  The other handlers react for themselves. -/
def reaction (react : Channel.Call → Channel.Reaction) (onError : RunError → Channel.Reaction)
    (r : Runner τ) : Channel.Call → Channel.Reaction
  | .runner payload =>
      match r.current with
      | none => .done
      | some a =>
          match RunError.ofPayload? a payload with
          | none => .raised
          | some x => onError x
  | call => react call

/-- Whether a call is one of a handler that does not belong to the runner. -/
def isForeign : Channel.Call → Bool
  | .runner _ => false
  | _ => true

variable [Resize.Clock τ]

/-- One message.  An error is recorded before the callback for errors is called with it. -/
def handle (react : Channel.Call → Channel.Reaction) (onError : RunError → Channel.Reaction)
    (now : τ) (e : Event) (r : Runner τ) : Handled τ :=
  let h := r.channel.handle (r.reaction react onError) now e
  let recorded := h.calls.flatMap r.recordedBy
  ⟨{ r with channel := h.after, errors := r.errors ++ recorded }, h.verdict,
    h.calls.filter isForeign, recorded⟩

/-- Runs the timers of the channel: the state after it, how many there were, and the calls. -/
def fire (now : τ) (r : Runner τ) : Runner τ × Nat × List Channel.Call :=
  let (c, count, calls) := r.channel.fire now
  ({ r with channel := c }, count, calls)

end Runner

/-! ### Building runners -/

/-- Why there is no runner. -/
inductive RunnerFault where
  | channel (f : Channel.BuildFault)
  | symbols (f : SymbolTable.SourceFault)
  | dialect (f : DialectFault)
deriving DecidableEq, Repr

/-- The runner for settings.  A channel and a symbol table may be given; the others come from the
settings, where `text?` is what the file at a path holds. -/
def Runner.build (s : Settings) (channel? : Option (Channel Float))
    (symbols? : Option SymbolTable) (text? : String → Option String) (container : String) :
    Except RunnerFault (Runner Float) := do
  let channel ← match channel? with
    | some c => .ok c
    | none => (Channel.Options.plain.withSettings s).build.mapError .channel
  let symbols ← match symbols? with
    | some t => .ok t
    | none => (SymbolTable.ofPath s.symbolsPath text?).mapError .symbols
  let dialect ← (Dialect.make? symbols s.namespaceName s.lead).mapError .dialect
  return .make channel dialect container

end SketchHost
