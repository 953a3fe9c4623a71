/-
**Bindings.**

Which names a declaration introduces, where a name stands for a key and where it is being declared,
and which declarations enclose a place.

* `Script.Node.bindings` — the names that a declaration target binds;
* `Script.Node.boundParameters` — the names that a function binds by its parameters;
* `Script.Node.Place.isKey`, `Script.Node.Place.isBinding` — the places of keys and of declared names;
* `Script.Node.localBindings`, `Script.Node.Place.isLocal` — the local declarations around a place.
-/

import SketchHost.Script.Node

set_option relaxedAutoImplicit false
set_option autoImplicit false

namespace SketchHost

namespace Script

namespace Node

/-! ### Declaration targets -/

/-- The names that a declaration target binds, in source order.  Default values and keys bind
nothing. -/
def bindings : Node → List Node
  | node k r a b t cs =>
      match k with
      | .identifier | .shorthandPattern => [node k r a b t cs]
      | .objectPattern | .arrayPattern | .restPattern => bindingsAll cs
      | .pairPattern => bindingsIn .value cs
      | .assignmentPattern | .objectAssignmentPattern => bindingsIn .left cs
      | _ => []
where
  /-- The names that several targets bind. -/
  bindingsAll : List Node → List Node
    | [] => []
    | c :: rest => bindings c ++ bindingsAll rest
  /-- The names that the first target in a role binds. -/
  bindingsIn (r : Role) : List Node → List Node
    | [] => []
    | c :: rest => if c.role == r then bindings c else bindingsIn r rest

/-- The names that an optional target binds. -/
def bindings? : Option Node → List Node
  | none => []
  | some n => n.bindings

/-- The names that a function binds by its parameters. -/
def boundParameters (n : Node) : List Node :=
  match n.child? .parameters with
  | some ps => ps.children.flatMap bindings
  | none => bindings? (n.child? .parameter)

/-! ### Kinds of scopes -/

/-- The definitions that carry a name of their own. -/
def isNamedDefinition (k : Kind) : Bool :=
  match k with
  | .functionDeclaration | .generatorDeclaration | .functionExpression | .generatorExpression
  | .classDeclaration | .classExpression => true
  | _ => false

/-- The nodes that bind parameters. -/
def isFunctionScope (k : Kind) : Bool :=
  match k with
  | .functionDeclaration | .generatorDeclaration | .functionExpression | .generatorExpression
  | .arrowFunction | .methodDefinition => true
  | _ => false

/-- The declarations of variables. -/
def isVariableDeclaration (k : Kind) : Bool :=
  match k with
  | .lexicalDeclaration | .variableDeclaration => true
  | _ => false

/-- The names that a statement declares in the block around it. -/
def blockBindings (n : Node) : List Node :=
  match n.kind with
  | .lexicalDeclaration | .variableDeclaration =>
      (n.children.filter fun c => c.kind == .variableDeclarator).flatMap fun d =>
        bindings? (d.child? .name)
  | .functionDeclaration | .generatorDeclaration | .classDeclaration => (n.child? .name).toList
  | _ => []

/-- Whether a loop over a collection declares its variables. -/
def declaresTarget (n : Node) : Bool :=
  (n.child? .declarationWord).isSome

/-- The names that a node binds for what lies inside it. -/
def localBindings (n : Node) : List Node :=
  if isFunctionScope n.kind then n.boundParameters
  else
    match n.kind with
    | .catchClause => bindings? (n.child? .parameter)
    | .block => n.children.flatMap blockBindings
    | .forStatement => ((n.child? .initializer).map blockBindings).getD []
    | .forInStatement => if n.declaresTarget then bindings? (n.child? .left) else []
    | _ => []

/-! ### Places -/

/-- The parents whose names label something in another module. -/
def isModuleSpecifier (k : Kind) : Bool :=
  match k with
  | .importSpecifier | .exportSpecifier | .namespaceImport | .namespaceExport | .importClause => true
  | _ => false

/-- A name that labels something instead of referring to it. -/
def Place.isKey (p : Place) : Bool :=
  p.node.kind == .propertyName
    || p.parent?.any (fun n => isModuleSpecifier n.kind)
    || p.above.any fun n => n.kind == .importStatement

/-- A name that is being declared at its place. -/
def Place.isBinding (p : Place) : Bool :=
  match p.parent? with
  | none => false
  | some parent =>
      let r := p.node.role
      match parent.kind with
      | .formalParameters | .arrayPattern | .restPattern | .objectPattern => true
      | .assignmentPattern | .objectAssignmentPattern => r == .left
      | .pairPattern => r == .value
      | .arrowFunction | .catchClause => r == .parameter
      | .forInStatement => parent.declaresTarget && r == .left
      | .variableDeclarator => r == .name
      | k => isNamedDefinition k && r == .name

/-- Whether a declaration of `name` encloses a place.  Declarations at the top level do not count. -/
def Place.isLocal (p : Place) (name : String) : Bool :=
  p.above.any fun n => n.localBindings.any fun b => b.text == name

end Node

end Script

end SketchHost
