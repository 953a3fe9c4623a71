/-
**Answers to requests.**

What is printed and written for a request.  Files, the standard input and new identifiers come from a
host, so that the answers can be studied apart from any file system.

* `CommandLine.Host` — what a request needs from the outside;
* `CommandLine.Report` — what is printed and written, and whether the request failed;
* `CommandLine.Obstacle` — why there is no report;
* `CommandLine.Invocation.answer` — the answer to a request.
-/

import SketchHost.CommandLine.Request
import SketchHost.Config.Layers
import SketchHost.Run.Attempt
import SketchHost.Symbols.Source

set_option relaxedAutoImplicit false
set_option autoImplicit false

namespace SketchHost

namespace CommandLine

/-! ### Hosts and reports -/

/-- What a request needs from the outside: the text of a file if there is one, the standard input, and a
new identifier. -/
structure Host (m : Type → Type) where
  file? : String → m (Option String)
  input : m String
  newId : m String

/-- What is printed, which files are written, and what is said in the end if the request failed. -/
structure Report where
  printed : List Char
  files : List (String × List Char)
  failure : Option String
deriving DecidableEq, Repr

/-- Why there is no report. -/
inductive Obstacle where
  | missingFile (path : String)
  | config (f : Config.ConfigFault)
  /-- A part of the configuration that holds entries is no record. -/
  | notRecord (name : String)
  /-- The namespace in the configuration is no text. -/
  | namespaceNotText
  /-- An entry of the configuration is of a sort that cannot be used. -/
  | unusable (entry : String)
  | symbols (f : SymbolTable.SourceFault)
  | dialect (f : DialectFault)
  | map (f : LineMap.MapFault)
deriving DecidableEq, Repr

/-- The wording of an obstacle. -/
def Obstacle.message : Obstacle → String
  | missingFile path => "There is no file " ++ path
  | config f => f.message?.getD "The config file is not readable"
  | notRecord name => "The part " ++ name ++ " of the config must be a mapping"
  | namespaceNotText => "The namespace in the config must be a text"
  | unusable entry => "The entry " ++ entry ++ " of the config cannot be used"
  | symbols (.missing path) => "There is no file " ++ path
  | symbols f => f.message?.getD "The symbol table is not readable"
  | dialect f => f.message
  | map f => f.message?.getD "A line number is too long"

/-- A text that is printed, with a line break after it, or written to a file whose path is not empty. -/
def Report.ofText (text : List Char) (out : Option String) : Report :=
  match out with
  | some path =>
      if path.isEmpty then ⟨text ++ ['\n'], [], none⟩ else ⟨[], [(path, text)], none⟩
  | none => ⟨text ++ ['\n'], [], none⟩

/-- Nothing is printed or written. -/
def Report.empty : Report := ⟨[], [], none⟩

/-! ### Inputs -/

section Inputs

variable {m : Type → Type} [Monad m]

/-- Answers that come with effects of the host. -/
abbrev Answering (m : Type → Type) := ExceptT Obstacle m

/-- A result or an obstacle, without effects. -/
def settle {α : Type} (r : Except Obstacle α) : Answering m α :=
  ExceptT.mk (pure r)

/-- The file at a path. -/
def readFile (host : Host m) (path : String) : Answering m File := do
  match ← ExceptT.lift (host.file? path) with
  | some text => return ⟨path, text⟩
  | none => settle (.error (.missingFile path))

/-- The text at a path; a dash stands for the standard input. -/
def readText (host : Host m) (path : String) : Answering m (List Char) := do
  if path == "-" then return (← ExceptT.lift host.input).toList
  else return (← readFile host path).body

/-- The configuration: the defaults, and the file at a path that is not empty. -/
def readConfig (host : Host m) (path? : Option String) : Answering m Value := do
  let file? ← match path?.filter (!·.isEmpty) with
    | none => pure none
    | some path => do pure (some (← readFile host path))
  settle ((Config.load file? []).mapError .config)

end Inputs

/-! ### Configuration -/

/-- The fields of a part of the configuration. -/
def part (name : String) (config : Value) : Except Obstacle Fields :=
  match ((config.field? name).getD (.record [])).fields? with
  | some fields => .ok fields
  | none => .error (.notRecord name)

/-- The path of the symbol table; null and what is blank stand for the bundled one. -/
def symbolsPath (fields : Fields) : Except Obstacle (Option String) :=
  match (Fields.find? "symbols_path" fields).getD .null with
  | .text path => .ok (some path)
  | .list _ => .error (.unusable "symbols_path")
  | .record _ => .error (.unusable "symbols_path")
  | v => if v.isBlank then .ok none else .error (.unusable "symbols_path")

/-- How sketches are converted.  A prefix that is no text cannot be put before a name, but a sketch that
has no name to put it before needs none. -/
structure Converter where
  dialect : Dialect
  canRename : Bool

/-- Whether no name of a source would be renamed. -/
def Converter.renamesNothing (r : Converter) (source : String) : Bool :=
  match Script.parse source with
  | .ok root => (r.dialect.plan source.toList root).renames.isEmpty
  | .error _ => true

/-- A source converted. -/
def Converter.convert (r : Converter) (source : String) :
    Except Obstacle (Except Dialect.Failure Dialect.Converted) :=
  if r.canRename || r.renamesNothing source then .ok (r.dialect.convert source)
  else .error (.unusable "rename_prefix")

/-- The converter for the entries of the configuration and a symbol table. -/
def converterOf (fields : Fields) (symbols : SymbolTable) : Except Obstacle Converter :=
  match (Fields.find? "namespace" fields).getD (.text Dialect.defaultNamespace) with
  | .text name =>
      let (lead, canRename) := match (Fields.find? "rename_prefix" fields).getD
          (.text Dialect.defaultLead) with
        | .text lead => (lead, true)
        | v => if v.isBlank then ("", false) else (Dialect.defaultLead, false)
      match Dialect.make? symbols name lead with
      | .ok d => .ok ⟨d, canRename⟩
      | .error f => .error (.dialect f)
  | _ => .error .namespaceNotText

/-- A message with the lines of the source around its line, as many as a value says.  A reach that is
not whole will do if it covers the whole source. -/
def configuredExcerpt (mapper : LineMap.Mapper) (message : List Char) (reach : Value) :
    Except Obstacle (List Char) := do
  let numbers ← (LineMap.Mapper.extract message).mapError .map
  let within (n : Int) : Except Obstacle (List Char) :=
    (mapper.withContext message n).mapError .map
  match numbers, reach with
  | [], _ => return message
  | _, .int n => within n
  | _, .bool b => within (if b then 1 else 0)
  | n :: ns, .float x =>
      let focus := (mapper.lineFor (ns.foldl min n : Nat)).toFloat
      if focus - x > 1.0 || focus + x < mapper.lineCount.toFloat then
        .error (.unusable "context_lines")
      else within mapper.lineCount
  | _, _ => .error (.unusable "context_lines")

/-! ### Answers -/

/-- The outcome of a conversion in JSON. -/
def outcomeValue : Except Dialect.Failure Dialect.Converted → Value
  | .ok r => .record
      [("success", .bool true), ("code", .text r.code), ("error", .null),
       ("renamed", .record (r.renames.map fun (old, new) => (old, .text new)))]
  | .error f => .record
      [("success", .bool false), ("code", .null), ("error", .text f.message),
       ("renamed", .record [])]

/-- What is said in the end if a conversion failed. -/
def failureOf : Except Dialect.Failure Dialect.Converted → Option String
  | .ok _ => none
  | .error f => some ("Error: " ++ f.message)

/-- The report of a conversion. -/
def conversionReport (outcome : Except Dialect.Failure Dialect.Converted) (out : Option String)
    (full : Bool) : Report :=
  let report :=
    if full then Report.ofText (Json.indented (outcomeValue outcome)) out
    else
      match outcome with
      | .ok r => Report.ofText r.code.toList out
      | .error _ => Report.empty
  { report with failure := failureOf outcome }

section Answers

variable {m : Type → Type} [Monad m]

/-- The converter for a configuration. -/
def readConverter (host : Host m) (config : Value) : Answering m Converter := do
  let fields ← settle (part "transpile" config)
  let path? := (← settle (symbolsPath fields)).filter (!·.isEmpty)
  let text? ← match path? with
    | some path => ExceptT.lift (host.file? path)
    | none => pure none
  let symbols ← settle ((SymbolTable.ofPath path? fun _ => text?).mapError .symbols)
  settle (converterOf fields symbols)

/-- The answer to a request for a conversion. -/
def answerTranspile (host : Host m) (config : Value) (source : String) (out : Option String)
    (full : Bool) : Answering m Report := do
  let converter ← readConverter host config
  let text ← readText host source
  return conversionReport (← settle (converter.convert (String.ofList text))) out full

/-- The answer to a request for the mapping of an error. -/
def answerMapError (host : Host m) (config : Value) (source : String) (injected : Int)
    (message : TextSource) (excerpt : ExcerptChoice) : Answering m Report := do
  let message ← match message with
    | .given text => pure text.toList
    | .file path => readText host path
  let text ← readText host source
  let mapper ← settle ((LineMap.Mapper.make? text injected).mapError .map)
  let shown ← match excerpt with
    | .no => settle ((mapper.mapMessage message).mapError .map)
    | .lines reach => settle ((mapper.withContext message reach).mapError .map)
    | .configured => do
        let fields ← settle (part "scaffold" config)
        settle (configuredExcerpt mapper message
          ((Fields.find? "context_lines" fields).getD (.int 2)))
  return Report.ofText shown none

/-- The answer to a request for a script. -/
def answerScaffold (host : Host m) (config : Value) (source : String) (id : Option String)
    (out : Option String) : Answering m Report := do
  let text ← readText host source
  let id ← match id.filter (!·.isEmpty) with
    | some id => pure id
    | none => ExceptT.lift host.newId
  if isSketch text then
    let converter ← readConverter host config
    match ← settle (converter.convert (String.ofList text)) with
    | .error f => return { Report.empty with failure := failureOf (.error f) }
    | .ok r =>
        let fields ← settle (part "scaffold" config)
        let container := (Fields.find? "container_id" fields).getD
          (.text Injection.defaultContainer)
        let script := Injection.forInstance r.code.toList id converter.dialect.namespaceName
          container
        return Report.ofText script.text out
  else return Report.ofText (Injection.plain text id).text out

/-- The answer to a request. -/
def Invocation.answer (host : Host m) (i : Invocation) : Answering m Report := do
  let config ← readConfig host i.config
  match i.request with
  | .transpile source out full => answerTranspile host config source out full
  | .mapError source injected message excerpt =>
      answerMapError host config source injected message excerpt
  | .scaffold source id out => answerScaffold host config source id out

end Answers

end CommandLine

end SketchHost
