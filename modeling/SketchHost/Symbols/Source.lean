/-
**Symbol tables from files.**

* `SymbolTable.SourceFault` — why a file gives no symbol table;
* `SymbolTable.ofFile` — the table that a file in YAML describes;
* `SymbolTable.ofPath` — the table of the file at a path, or the bundled one.
-/

import SketchHost.Config.File
import SketchHost.Symbols.Bundled

set_option relaxedAutoImplicit false
set_option autoImplicit false

namespace SketchHost

namespace SymbolTable

/-- Why a file gives no symbol table. -/
inductive SourceFault where
  /-- There is no file at the path. -/
  | missing (path : String)
  /-- The file is not in YAML. -/
  | unreadable
  /-- What the file denotes is no symbol table. -/
  | malformed (path : String) (why : Malformed)
deriving DecidableEq, Repr

/-- The wording of a fault, if it has one of its own. -/
def SourceFault.message? : SourceFault → Option String
  | missing _ => none
  | unreadable => none
  | malformed path why => some (why.message path)

/-- The table that a file describes. -/
def ofFile (f : File) : Except SourceFault SymbolTable :=
  match f.value? with
  | none => .error .unreadable
  | some v =>
      match ofValue v with
      | .ok t => .ok t
      | .error why => .error (.malformed f.path why)

/-- The table of the file at a path; `text?` is what the file holds.  Without a path, or with an empty
one, it is the bundled table. -/
def ofPath (path? : Option String) (text? : String → Option String) :
    Except SourceFault SymbolTable :=
  match path? with
  | none => .ok bundled
  | some path =>
      if path.isEmpty then .ok bundled
      else
        match text? path with
        | none => .error (.missing path)
        | some text => ofFile ⟨path, text⟩

@[simp] theorem ofPath_none (text? : String → Option String) : ofPath none text? = .ok bundled := rfl

end SymbolTable

end SketchHost
