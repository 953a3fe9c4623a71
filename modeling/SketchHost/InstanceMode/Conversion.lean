/-
**From global mode to instance mode.**

A sketch in global mode uses the names of the library as globals.  Converted, it uses them as
properties of an instance, has its own variables renamed, and defines the hooks on the instance.

* `Dialect.make?` — a dialect whose namespace is a name and whose prefix is not empty;
* `Dialect.plan` — the hoists, the renames and the edits of a tree;
* `Dialect.convert` — a source converted, and read again before it is given out.
-/

import SketchHost.InstanceMode.Qualify
import SketchHost.Script.Diagnosis
import SketchHost.Symbols.Bundled
import SketchHost.Text.Name
import SketchHost.Text.Quoted

set_option relaxedAutoImplicit false
set_option autoImplicit false

namespace SketchHost

open Script

/-! ### Dialects -/

/-- Why there is no dialect of a namespace and a prefix. -/
inductive DialectFault where
  | badNamespace (given : String)
  | emptyLead
deriving DecidableEq, Repr

/-- The wording of a refusal. -/
def DialectFault.message : DialectFault → String
  | badNamespace given =>
      "Instance namespace must be an identifier, got " ++ Text.quotedString given
  | emptyLead => "Rename prefix must not be empty"

namespace Dialect

/-- The namespace of the instance where none is given. -/
def defaultNamespace : String := "_p"

/-- The prefix of renamed variables where none is given. -/
def defaultLead : String := "_"

/-- A dialect, if the namespace is a name and the prefix is not empty. -/
def make? (symbols : SymbolTable) (namespaceName lead : String) : Except DialectFault Dialect :=
  if !Text.isName namespaceName.toList then .error (.badNamespace namespaceName)
  else if lead.isEmpty then .error .emptyLead
  else .ok ⟨symbols, namespaceName, lead⟩

/-- The dialect of the drawing library with the usual namespace and prefix. -/
def standard : Dialect :=
  ⟨.bundled, defaultNamespace, defaultLead⟩

/-! ### Plans -/

/-- What a conversion does to a tree. -/
structure Plan where
  hoists : List Hoist
  renames : Renames
  names : List TextEdit

/-- All edits of a plan. -/
def Plan.edits (p : Plan) : List TextEdit :=
  p.hoists.flatMap Hoist.edits ++ p.names

/-- The plan for a tree: its hoists, its renames, and an edit for every name that changes. -/
def plan (d : Dialect) (source : List Char) (root : Node) : Plan :=
  let hoists := root.children.filterMap (d.hoist? source)
  let consumed := hoists.map Hoist.consumed
  let hoisted := hoists.map Hoist.name
  let renames := Renames.collect d.symbols d.lead consumed root
  let names := (root.places []).filterMap fun p =>
    if consumed.contains p.node.span then none else d.nameEdit? renames hoisted p
  ⟨hoists, renames, names⟩

/-! ### Conversion -/

/-- A converted sketch. -/
structure Converted where
  code : String
  renames : Renames
deriving DecidableEq, Repr

/-- Why a sketch is not converted. -/
inductive Failure where
  /-- The source is no program. -/
  | source (fault : Fault)
  /-- The result is no program. -/
  | result (fault : Fault)
  /-- Two edits overlap, or an edit divides a character. -/
  | edits (fault : EditFault)
deriving DecidableEq, Repr

/-- What is wrong, without its place. -/
def Failure.detail : Failure → String
  | source f => f.detail
  | result f => "Rewritten sketch failed to parse: " ++ f.detail
  | edits (.overlap o) => o.message
  | edits .notText => "An edit divides a character"

/-- The wording of a failure. -/
def Failure.message (failure : Failure) : String :=
  match failure with
  | source f => failure.detail ++ f.position.message
  | result f => failure.detail ++ f.position.message
  | edits _ => failure.detail

/-- A source converted.  What is given out is a program again. -/
def convert (d : Dialect) (source : String) : Except Failure Converted :=
  match parse source with
  | .error f => .error (.source f)
  | .ok root =>
      let p := d.plan source.toList root
      match editText source p.edits with
      | .error f => .error (.edits f)
      | .ok code =>
          match parse code with
          | .error f => .error (.result f)
          | .ok _ => .ok ⟨code, p.renames⟩

end Dialect

end SketchHost
