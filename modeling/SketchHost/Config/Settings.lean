/-
**Settings.**

The settings of a runner and its channel, each of the sort that is asked for.  A setting is given
directly, or by a variable of the environment, or has its default.

* `Settings` — the settings;
* `Settings.ofInputs` — the settings from what is given and from the environment;
* `Settings.ofConfig` — the settings from a configuration.
-/

import SketchHost.Config.Layers
import SketchHost.Json.Reader
import SketchHost.Value.Coerce

set_option relaxedAutoImplicit false
set_option autoImplicit false

namespace SketchHost

/-- The settings of a runner and its channel. -/
structure Settings where
  allowedOrigins : List String
  throttleMs : Nat
  namespaceName : String
  lead : String
  requireSketchId : Bool
  symbolsPath : Option String
deriving DecidableEq, Repr

/-- Why there are no settings. -/
inductive SettingsFault where
  /-- A part of the configuration that holds settings is no record. -/
  | notRecord
  /-- A variable of the environment that has to be in JSON is not. -/
  | badVariable
  /-- Values are not of the sort that is asked for. -/
  | misfits (findings : List Finding)
deriving DecidableEq, Repr

/-- The variables of an environment. -/
abbrev Environment := List (String × String)

/-- The value of a variable; the case of its name does not matter, and the last one counts. -/
def Environment.find? (name : String) (env : Environment) : Option String :=
  (env.reverse.find? fun v => v.1.toLower == name.toLower).map (·.2)

namespace Settings

/-! ### Names -/

/-- The name of the setting for the origins that messages are taken from. -/
def originsName : String := "SKETCHBRIDGE_ALLOWED_ORIGINS"

/-- The name of the setting for the time between two reports of a size. -/
def throttleName : String := "SKETCHBRIDGE_RESIZE_THROTTLE_MS"

/-- The name of the setting for the namespace of the instance. -/
def namespaceKey : String := "SKETCHBRIDGE_INSTANCE_NAMESPACE"

/-- The name of the setting for the prefix of renamed variables. -/
def leadName : String := "SKETCHBRIDGE_RENAME_PREFIX"

/-- The name of the setting for messages without an identifier. -/
def requireName : String := "SKETCHBRIDGE_REQUIRE_SKETCH_ID"

/-- The name of the setting for the file with the symbols of the library. -/
def symbolsName : String := "SKETCHBRIDGE_SYMBOLS_PATH"

/-- The settings where nothing is given. -/
def defaults : Settings :=
  ⟨Config.defaultOrigins, 150, "_p", "_", false, none⟩

/-! ### Sorts -/

/-- A number that is not negative. -/
def asNat (v : Value) : Except Misfit Nat :=
  match v.asInt with
  | .ok (.ofNat n) => .ok n
  | .ok (.negSucc _) => .error .tooSmall
  | .error m => .error m

/-- A text that is not empty. -/
def asLead (v : Value) : Except Misfit String :=
  match v.asText with
  | .ok s => if s.isEmpty then .error .tooShort else .ok s
  | .error m => .error m

/-- A setting with one value: what was given, read as its sort, or its default. -/
def setting {α : Type} (name : String) (dflt : α) (read : Value → Except Misfit α)
    (given : Option Value) : Except (List Finding) α :=
  match given with
  | none => .ok dflt
  | some v =>
      match read v with
      | .ok a => .ok a
      | .error m => .error [⟨[name], m⟩]

/-- The setting for origins, whose items have places of their own. -/
def originsSetting (given : Option Value) : Except (List Finding) (List String) :=
  match given with
  | none => .ok defaults.allowedOrigins
  | some v =>
      match v.asTexts with
      | .ok origins => .ok origins
      | .error faults =>
          .error (faults.map fun (i?, m) =>
            ⟨originsName :: i?.toList.map fun i => String.ofList (Text.decimal i), m⟩)

/-- The misfits of a setting. -/
def findingsOf {α : Type} : Except (List Finding) α → List Finding
  | .ok _ => []
  | .error cs => cs

/-! ### Inputs -/

/-- The origins in the environment: a list in JSON.  A null stands for no value. -/
def originsVariable (env : Environment) : Except SettingsFault (Option Value) :=
  match env.find? originsName with
  | none => .ok none
  | some s =>
      match Json.read? s.toList with
      | none => .error .badVariable
      | some .null => .ok none
      | some v => .ok (some v)

/-- The settings from values under their names and from an environment.  A value that is given
directly counts before a variable, and all misfits are named. -/
def ofInputs (env : Environment) (given : Fields) : Except SettingsFault Settings := do
  let fromEnv ← originsVariable env
  let find (name : String) : Option Value :=
    Fields.find? name given <|> (env.find? name).map .text
  let origins := originsSetting (Fields.find? originsName given <|> fromEnv)
  let throttle := setting throttleName defaults.throttleMs asNat (find throttleName)
  let ns := setting namespaceKey defaults.namespaceName Value.asText (find namespaceKey)
  let lead := setting leadName defaults.lead asLead (find leadName)
  let require := setting requireName defaults.requireSketchId Value.asBool (find requireName)
  let symbols := setting symbolsName defaults.symbolsPath (Value.orNull Value.asText)
    (find symbolsName)
  match origins, throttle, ns, lead, require, symbols with
  | .ok origins, .ok throttle, .ok ns, .ok lead, .ok require, .ok symbols =>
      return ⟨origins, throttle, ns, lead, require, symbols⟩
  | _, _, _, _, _, _ =>
      .error (.misfits (findingsOf origins ++ findingsOf throttle ++ findingsOf ns
        ++ findingsOf lead ++ findingsOf require ++ findingsOf symbols))

/-- The fields of a part of a configuration, which is empty if it is left out. -/
def section? (config : Value) (name : String) : Except SettingsFault Fields :=
  match (config.field? name).getD (.record []) with
  | .record fields => .ok fields
  | _ => .error .notRecord

/-- The settings from a configuration.  What it leaves out has its default, whatever the environment
holds. -/
def ofConfig (env : Environment) (config : Value) : Except SettingsFault Settings := do
  let channel ← section? config "channel"
  let transpile ← section? config "transpile"
  let take (fields : Fields) (name : String) (dflt : Value) : Value :=
    (Fields.find? name fields).getD dflt
  ofInputs env
    [(originsName, take channel "allowed_origins" (.list (defaults.allowedOrigins.map .text))),
     (throttleName, take channel "throttle_ms" (.int defaults.throttleMs)),
     (namespaceKey, take transpile "namespace" (.text defaults.namespaceName)),
     (leadName, take transpile "rename_prefix" (.text defaults.lead)),
     (requireName, take channel "require_sketch_id" (.bool defaults.requireSketchId)),
     (symbolsName, take transpile "symbols_path" .null)]

end Settings

end SketchHost
