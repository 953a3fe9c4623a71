/-
**Layers of configuration.**

A configuration is a record of records.  A later layer replaces what it mentions and keeps the rest,
at every depth.

* `Config.merge` — one value laid over another;
* `Config.defaults` — the layer below all others;
* `Config.load` — the defaults, a file if there is one, and overrides.
-/

import SketchHost.Config.File

set_option relaxedAutoImplicit false
set_option autoImplicit false

namespace SketchHost

namespace Config

/-! ### Merging -/

/-- One value laid over another: two records are merged field by field, and in any other case the
upper one counts. -/
def merge (base : Value) : Value → Value
  | .record upper =>
      match base with
      | .record fields => .record (mergeFields fields upper)
      | _ => .record upper
  | v => v
where
  /-- Fields laid over others, one after the other. -/
  mergeFields (fields : Fields) : List (String × Value) → Fields
    | [] => fields
    | (k, v) :: rest =>
        let merged := match Fields.find? k fields with
          | some old => merge old v
          | none => v
        mergeFields (Fields.set k merged fields) rest

/-! ### Defaults -/

/-- The origins from which messages are taken where no others are given. -/
def defaultOrigins : List String :=
  ["http://localhost", "http://127.0.0.1", "http://localhost:5173", "http://localhost:3030",
   "http://localhost:8080"]

/-- The layer below all others. -/
def defaults : Value :=
  .record
    [("transpile", .record
        [("namespace", .text "_p"), ("rename_prefix", .text "_"), ("symbols_path", .null)]),
     ("channel", .record
        [("allowed_origins", .list (defaultOrigins.map .text)), ("throttle_ms", .int 150),
         ("require_sketch_id", .bool false)]),
     ("scaffold", .record
        [("container_id", .text "sketch-container"), ("context_lines", .int 2)])]

/-! ### Files -/

/-- Why a file is no configuration; `path` is what it is called. -/
inductive ConfigFault where
  | unreadable
  | notRecord (path : String)
deriving DecidableEq, Repr

/-- The wording of a fault, if it has one of its own. -/
def ConfigFault.message? : ConfigFault → Option String
  | unreadable => none
  | notRecord path => some ("Config file " ++ path ++ " must contain a mapping")

/-- The layer that a file describes; a file that denotes nothing is an empty layer. -/
def layerOf (f : File) : Except ConfigFault Value :=
  match f.value? with
  | none => .error .unreadable
  | some v =>
      match v.orElse (.record []) with
      | .record fields => .ok (.record fields)
      | _ => .error (.notRecord f.path)

/-- The configuration: the defaults, then a file, then overrides. -/
def load (file? : Option File) (overrides : Fields) : Except ConfigFault Value := do
  let base ← match file? with
    | some f => (layerOf f).map (merge defaults)
    | none => .ok defaults
  return merge base (.record overrides)

end Config

end SketchHost
