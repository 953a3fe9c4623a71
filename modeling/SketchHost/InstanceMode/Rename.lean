/-
**Renaming.**

Every variable that a sketch declares gets a prefixed name, so that it cannot collide with a global
of the library.  The map is by name and covers the whole program.

* `Renames` — the map from old to new names, in the order in which they were met;
* `Renames.collect` — the map of a program;
* `Renames.target?` — the new name of a name that is to be changed.
-/

import SketchHost.InstanceMode.Binding
import SketchHost.Symbols.Table

set_option relaxedAutoImplicit false
set_option autoImplicit false

namespace SketchHost

open Script

/-- New names for old ones, in the order in which the old ones were met. -/
abbrev Renames := List (String × String)

namespace Renames

/-- The new name of `name`. -/
def find? (name : String) (rs : Renames) : Option String :=
  rs.lookup name

/-- Whether `name` is in the map. -/
def owns (name : String) (rs : Renames) : Bool :=
  (rs.find? name).isSome

/-- Adds a new name unless there is one. -/
def add (rs : Renames) (old new : String) : Renames :=
  if rs.owns old then rs else rs ++ [(old, new)]

/-- The new name of `name`, if it differs from the old one. -/
def target? (name : String) (rs : Renames) : Option String :=
  match rs.find? name with
  | some new => if new == name then none else some new
  | none => none

/-- A name with a prefix, unless it begins with it. -/
def prefixed (lead name : String) : String :=
  if lead.toList.isPrefixOf name.toList then name else lead ++ name

/-- The target that a node declares variables by, if it does. -/
def declaredTarget? (n : Node) : Option Node :=
  match n.kind with
  | .variableDeclarator => n.child? .name
  | .forInStatement => if n.declaresTarget then n.child? .left else none
  | _ => none

/-- The names of the variables that a tree declares, in the order of the tree. -/
def declaredNames (root : Node) : List Node :=
  root.preorder.flatMap fun n => Node.bindings? (declaredTarget? n)

/-- The renames of a program: each declared variable gets its prefixed name, apart from lifecycle
hooks and from declarations at a span in `excluded`. -/
def collect (symbols : SymbolTable) (lead : String) (excluded : List Span) (root : Node) : Renames :=
  (declaredNames root).foldl
    (fun rs b =>
      if excluded.contains b.span || symbols.isHook b.text then rs
      else rs.add b.text (prefixed lead b.text))
    []

end Renames

end SketchHost
