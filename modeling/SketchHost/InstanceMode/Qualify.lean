/-
**Qualification.**

What becomes of one name: it is renamed, it is accessed through the namespace, or it stays.

* `Dialect.calleeEdit?` — the callee of a library function;
* `Dialect.referenceEdit?`, `Dialect.shorthandEdit?` — a library constant or a hoisted name;
* `Dialect.nameEdit?` — the edit of a name at its place.
-/

import SketchHost.InstanceMode.Hoist
import SketchHost.InstanceMode.Rename

set_option relaxedAutoImplicit false
set_option autoImplicit false

namespace SketchHost

open Script

/-- The replacement of a node by a text. -/
def replaceNode (n : Node) (s : String) : TextEdit :=
  textEdit n.start n.stop s

/-- The edit that gives a name its new name. -/
def newNameEdit? (rs : Renames) (n : Node) : Option TextEdit :=
  (rs.target? n.text).map (replaceNode n)

/-- The edit that keeps the key of a shorthand and renames its value. -/
def splitShorthand? (rs : Renames) (n : Node) : Option TextEdit :=
  (rs.target? n.text).map fun new => replaceNode n (n.text ++ ": " ++ new)

namespace Dialect

/-- The edit of a name that is called as a library function. -/
def calleeEdit? (d : Dialect) (p : Node.Place) : Option TextEdit :=
  let name := p.node.text
  if p.parent?.any (fun n => n.kind == .call) && p.node.role == .callee
      && d.symbols.isFunction name && !p.isLocal name then
    some (replaceNode p.node (d.onInstance name))
  else none

/-- A name that is found on the instance wherever it is not shadowed. -/
def isInstanceName (d : Dialect) (hoisted : List String) (name : String) : Bool :=
  d.symbols.isConstant name || hoisted.contains name

/-- The edit of a name that refers to a library constant or a hoisted definition. -/
def referenceEdit? (d : Dialect) (hoisted : List String) (p : Node.Place) : Option TextEdit :=
  let name := p.node.text
  if d.isInstanceName hoisted name && !p.isLocal name then
    some (replaceNode p.node (d.onInstance name))
  else none

/-- The edit of a shorthand that refers to a library constant or a hoisted definition. -/
def shorthandEdit? (d : Dialect) (hoisted : List String) (p : Node.Place) : Option TextEdit :=
  let name := p.node.text
  if d.isInstanceName hoisted name && !p.isLocal name then
    some (replaceNode p.node (name ++ ": " ++ d.onInstance name))
  else none

/-- The edit of a plain name.  A call of a library function comes before renaming, and a place that
declares a name is not onInstance. -/
def identifierEdit? (d : Dialect) (rs : Renames) (hoisted : List String) (p : Node.Place) :
    Option TextEdit :=
  if p.isKey then none
  else
    match d.calleeEdit? p with
    | some e => some e
    | none =>
        if rs.owns p.node.text then newNameEdit? rs p.node
        else if p.isBinding then none
        else d.referenceEdit? hoisted p

/-- The edit of a name at its place. -/
def nameEdit? (d : Dialect) (rs : Renames) (hoisted : List String) (p : Node.Place) :
    Option TextEdit :=
  match p.node.kind with
  | .identifier => d.identifierEdit? rs hoisted p
  | .shorthandPattern => splitShorthand? rs p.node
  | .shorthand =>
      if rs.owns p.node.text then splitShorthand? rs p.node else d.shorthandEdit? hoisted p
  | _ => none

end Dialect

end SketchHost
