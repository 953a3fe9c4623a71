/-
**Reading a sketch.**

The grammar of expressions and statements closed over its parts.  The depth of the recursion is
bounded by a number that the length of the source gives, so that reading is a total function; every
step down reads a token or passes to a smaller kind of phrase.  Elements of JSX, decorators and comments
that begin as in HTML are not part of the grammar: a source that has one of them is no program.

* `Script.readPart` — the reader for a part, to a given depth;
* `Script.Node.isFinished` — no shorthand with a default value is left over outside a pattern;
* `Script.parse?` — the syntax tree of a source, if it has one.
-/

import SketchHost.Script.Statement

set_option relaxedAutoImplicit false
set_option autoImplicit false

namespace SketchHost

namespace Script

/-- The reader for a part, to a given depth. -/
def readPart : Nat → Goal → Parse Node
  | 0, _ => failure
  | depth + 1, goal =>
      let g : Parts := ⟨depth, readPart depth⟩
      match goal with
      | .operand => operand g
      | .expression => expression g
      | .statement => statement g

/-- A depth that no phrase of a source of this length exceeds. -/
def depthOf (cs : List Char) : Nat :=
  4 * cs.length + 16

/-- The readers for the parts of a source. -/
def partsOf (cs : List Char) : Parts :=
  ⟨depthOf cs, readPart (depthOf cs)⟩

/-- No node of the tree is a shorthand with a default value outside a pattern. -/
def Node.isFinished (n : Node) : Bool :=
  n.preorder.all fun m => m.kind != .coverInitializer

/-- The statements up to the end of the source. -/
def statementsToEnd (g : Parts) : Nat → Parse (List Node)
  | 0 => failure
  | fuel + 1 => do
      if (← here).rest.isEmpty then return []
      else
        let s ← g.read .statement
        return s :: (← statementsToEnd g fuel)

/-- Past the interpreter line that may stand first. -/
def skipInterpreterLine (c : Cursor) : Cursor :=
  let d := c.skipTrivia
  match d.rest with
  | '#' :: '!' :: _ => (d.takeWhile fun x => x != '\n').2
  | _ => c

/-- The syntax tree of a source. -/
def parse? (source : List Char) : Option Node :=
  let g := partsOf source
  match (statementsToEnd g g.bound).run (skipInterpreterLine (Cursor.start source)) with
  | some (body, after) =>
      let root := Node.node .program .plain 0 after.offset "" body
      if root.isFinished then some root else none
  | none => none

end Script

end SketchHost
