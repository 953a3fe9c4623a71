/-
**Requests.**

What a command line asks for: the conversion of a sketch, the lines of the source for those of an error, or
the script around a sketch.

* `CommandLine.Request` — a request;
* `CommandLine.Invocation` — a request with the file that configures it;
* `CommandLine.Invocation.ofArguments` — the request that a command line stands for.
-/

import SketchHost.CommandLine.Arguments
import SketchHost.Text.Numeral

set_option relaxedAutoImplicit false
set_option autoImplicit false

namespace SketchHost

namespace CommandLine

/-- A text that is given on the command line, or in a file. -/
inductive TextSource where
  | given (text : String)
  | file (path : String)
deriving DecidableEq, Repr

/-- Whether lines of the source are shown with an error, and how many on each side. -/
inductive ExcerptChoice where
  | no
  | lines (reach : Int)
  /-- As many as the configuration says. -/
  | configured
deriving DecidableEq, Repr

/-- What a command line asks for.  Sources are paths; a result goes to the file at `out`, or else is
printed. -/
inductive Request where
  /-- The conversion of a sketch; `full` asks for all of the outcome in JSON. -/
  | transpile (source : String) (out : Option String) (full : Bool)
  /-- An error with the lines of the source for those of the script. -/
  | mapError (source : String) (injected : Int) (message : TextSource) (excerpt : ExcerptChoice)
  /-- The script that runs a source. -/
  | scaffold (source : String) (id : Option String) (out : Option String)
deriving DecidableEq, Repr

/-- A request with the file that configures it. -/
structure Invocation where
  config : Option String
  request : Request
deriving DecidableEq, Repr

/-! ### Options -/

/-- The options before the name of a request. -/
def generalSwitches : List Switch :=
  [helpSwitch, ⟨"--config", .valued⟩]

/-- The options of a conversion. -/
def transpileSwitches : List Switch :=
  [helpSwitch, ⟨"--out", .valued⟩, ⟨"--json", .flag⟩]

/-- The options of the mapping of an error. -/
def mapErrorSwitches : List Switch :=
  [helpSwitch, ⟨"--source", .valued⟩, ⟨"--injected", .valued⟩, ⟨"--message", .valued⟩,
   ⟨"--message-file", .valued⟩, ⟨"--context", .valued⟩, ⟨"--with-context", .flag⟩]

/-- The options of a script. -/
def scaffoldSwitches : List Switch :=
  [helpSwitch, ⟨"--sketch-id", .valued⟩, ⟨"--out", .valued⟩]

/-- The value of an option that is an integer.  Every value that is given has to be one; the last one
counts. -/
def intValue? (name : String) (o : Options) : Except Refusal (Option Int) :=
  match (o.values name).mapM fun s => Text.readInt? s.toList with
  | some ns => .ok ns.getLast?
  | none => .error .wrong

/-! ### Requests -/

/-- The request for a conversion. -/
def readTranspile (args : List String) : Except Refusal Request := do
  let (o, source) ← withValue (words transpileSwitches args)
  return .transpile source (o.value? "--out") (o.has "--json")

/-- The message of an error, which is given or in a file, but not both. -/
def messageOf (o : Options) : Except Refusal TextSource :=
  match o.value? "--message", o.value? "--message-file" with
  | some text, none => .ok (.given text)
  | none, some path => .ok (.file path)
  | _, _ => .error .wrong

/-- The request for the mapping of an error. -/
def readMapError (args : List String) : Except Refusal Request := do
  let o ← onlyOptions (words mapErrorSwitches args)
  let injected ← intValue? "--injected" o
  let context ← intValue? "--context" o
  let message ← messageOf o
  let excerpt := match context with
    | some reach => .lines reach
    | none => if o.has "--with-context" then .configured else .no
  match o.value? "--source" with
  | some source => return .mapError source (injected.getD 0) message excerpt
  | none => .error .wrong

/-- The request for a script. -/
def readScaffold (args : List String) : Except Refusal Request := do
  let (o, source) ← withValue (words scaffoldSwitches args)
  return .scaffold source (o.value? "--sketch-id") (o.value? "--out")

/-- The request that its name and the words after it stand for. -/
def readRequest (name : String) (args : List String) : Except Refusal Request :=
  match name with
  | "transpile" => readTranspile args
  | "map-error" => readMapError args
  | "scaffold" => readScaffold args
  | _ => .error .wrong

/-- The request that a command line stands for. -/
def Invocation.ofArguments (args : List String) : Except Refusal Invocation := do
  let (o, left) ← readOptions (words generalSwitches args)
  match left with
  | ⟨name, .value⟩ :: rest =>
      return ⟨o.value? "--config", ← readRequest name (rest.map Word.text)⟩
  | _ => .error .wrong

end CommandLine

end SketchHost
