/-
**Hoisting.**

A top-level definition of a lifecycle hook or of a library function belongs to the instance: it
becomes an assignment to a property of the namespace.

* `Hoist` — the name, the span of the name that it uses up, and its edits;
* `Dialect` — the symbols and the namespace of a conversion;
* `Dialect.hoist?` — the hoist of a top-level statement.
-/

import SketchHost.Text.Edit
import SketchHost.InstanceMode.Binding
import SketchHost.Symbols.Table
import SketchHost.Text.Blank

set_option relaxedAutoImplicit false
set_option autoImplicit false

namespace SketchHost

open Script

/-- What a conversion goes by: the names of the library, the namespace that its instance is bound to,
and the prefix of renamed variables. -/
structure Dialect where
  symbols : SymbolTable
  namespaceName : String
  lead : String
deriving Inhabited

/-- The edits that turn a definition into an assignment to the instance. -/
structure Hoist where
  name : String
  consumed : Span
  edits : List TextEdit

/-- The characters in a range of bytes, `k` being the offset of the first character. -/
def sliceFrom (span : Span) : Nat → List Char → List Char
  | _, [] => []
  | k, c :: rest =>
      if span.stop ≤ k then []
      else if k < span.start then sliceFrom span (k + c.utf8Size) rest
      else c :: sliceFrom span (k + c.utf8Size) rest

/-- The characters of a source in a range of bytes. -/
def slice (source : List Char) (span : Span) : List Char :=
  sliceFrom span 0 source

/-- A function as a value. -/
def isFunctionValue (k : Kind) : Bool :=
  match k with
  | .arrowFunction | .functionExpression | .generatorExpression => true
  | _ => false

namespace Dialect

/-- The access to a name through the namespace. -/
def onInstance (d : Dialect) (name : String) : String :=
  d.namespaceName ++ "." ++ name

/-- The semicolon that a hoisted statement gets, unless its text ends with one. -/
def terminator (source : List Char) (statement : Node) : List TextEdit :=
  if (Text.trimRight (slice source statement.span)).getLast? == some ';' then []
  else [textEdit statement.stop statement.stop ";"]

/-- The hoist of a named function. -/
def ofFunction? (d : Dialect) (source : List Char) (statement : Node) : Option Hoist := do
  let name ← statement.child? .name
  if d.symbols.belongsToInstance name.text then
    some ⟨name.text, name.span,
      [textEdit statement.start statement.start (d.onInstance name.text ++ " = "),
       textEdit name.start name.stop ""] ++ terminator source statement⟩
  else none

/-- The hoist of a declaration of one variable whose value is a function. -/
def ofVariable? (d : Dialect) (source : List Char) (statement : Node) : Option Hoist := do
  match statement.children.filter fun c => c.kind == .variableDeclarator with
  | [declarator] =>
      let name ← declarator.child? .name
      let value ← declarator.child? .value
      if name.kind == .identifier && isFunctionValue value.kind && d.symbols.belongsToInstance name.text then
        some ⟨name.text, name.span,
          textEdit statement.start value.start (d.onInstance name.text ++ " = ")
            :: terminator source statement⟩
      else none
  | _ => none

/-- The hoist of an assignment of a function to a lifecycle hook. -/
def ofAssignment? (d : Dialect) (statement : Node) : Option Hoist := do
  let expression ← statement.children.head?
  if expression.kind == .assignment then
    let left ← expression.child? .left
    let right ← expression.child? .right
    if left.kind == .identifier && d.symbols.isHook left.text && isFunctionValue right.kind then
      some ⟨left.text, left.span, [textEdit left.start left.stop (d.onInstance left.text)]⟩
    else none
  else none

/-- The hoist of a top-level statement, if it is one that is moved to the instance. -/
def hoist? (d : Dialect) (source : List Char) (statement : Node) : Option Hoist :=
  match statement.kind with
  | .functionDeclaration | .generatorDeclaration => d.ofFunction? source statement
  | .lexicalDeclaration | .variableDeclaration => d.ofVariable? source statement
  | .expressionStatement => d.ofAssignment? statement
  | _ => none

end Dialect

end SketchHost
