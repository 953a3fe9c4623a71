/-
**Symbol tables.**

What a conversion has to know of the drawing library: which global names are functions, which are
constants, and which are hooks that the library calls.

* `SymbolTable` — the three sets of names;
* `SymbolTable.isFunction`, `isConstant`, `isHook` — membership;
* `SymbolTable.belongsToInstance` — the names whose top-level definitions belong to the instance;
* `SymbolTable.ofValue` — a table from a value that was read from a file.
-/

import SketchHost.Value.Basic

set_option relaxedAutoImplicit false
set_option autoImplicit false

namespace SketchHost

/-- The names that a drawing library exposes, by what they are. -/
structure SymbolTable where
  functions : List String
  constants : List String
  lifecycle : List String
deriving DecidableEq, Repr, Inhabited

namespace SymbolTable

/-- A table of three lists, in which a name may come more than once. -/
def ofLists (functions constants lifecycle : List String) : SymbolTable :=
  ⟨functions, constants, lifecycle⟩

/-- The name of a library function. -/
def isFunction (t : SymbolTable) (name : String) : Bool :=
  t.functions.contains name

/-- The name of a library constant. -/
def isConstant (t : SymbolTable) (name : String) : Bool :=
  t.constants.contains name

/-- The name of a hook that the library calls. -/
def isHook (t : SymbolTable) (name : String) : Bool :=
  t.lifecycle.contains name

/-- A name whose top-level definition belongs to the instance. -/
def belongsToInstance (t : SymbolTable) (name : String) : Bool :=
  t.isHook name || t.isFunction name

/-- The number of different names of each sort. -/
def sizes (t : SymbolTable) : List Nat :=
  [t.functions.eraseDups.length, t.constants.eraseDups.length, t.lifecycle.eraseDups.length]

/-! ### Tables from files -/

/-- Why a value is no symbol table. -/
inductive Malformed where
  /-- The value is not a record. -/
  | notRecord
  /-- The entry is not a list of names. -/
  | notNames (entry : String)
deriving DecidableEq, Repr

/-- The wording of a refusal; `path` is the file that the value was read from. -/
def Malformed.message (path : String) : Malformed → String
  | notRecord => "Symbol table " ++ path ++ " must be a mapping"
  | notNames entry => "Symbol table entry '" ++ entry ++ "' must be a list of names"

/-- The names under an entry; an entry that is missing or blank has none. -/
def namesOf (entry : String) (v : Value) : Except Malformed (List String) :=
  match ((v.field? entry).getD .null).orElse (.list []) with
  | .list items =>
      match items.mapM Value.text? with
      | some names => .ok names
      | none => .error (.notNames entry)
  | _ => .error (.notNames entry)

/-- The table that a value describes; a blank value describes the empty table. -/
def ofValue (v : Value) : Except Malformed SymbolTable := do
  match v.orElse (.record []) with
  | .record fields =>
      let functions ← namesOf "functions" (.record fields)
      let constants ← namesOf "constants" (.record fields)
      let lifecycle ← namesOf "lifecycle" (.record fields)
      return ofLists functions constants lifecycle
  | _ => .error .notRecord

end SymbolTable

end SketchHost
