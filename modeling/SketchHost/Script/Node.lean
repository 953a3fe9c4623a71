/-
**Syntax trees of sketches.**

A node has a kind, the role it plays in its parent, the byte range it covers, the text of a name, and
its children in source order.  Marks and comments are not nodes: the range of a node tells where they
may stand.

* `Script.Kind`, `Script.Role` — the kinds of nodes and the roles of children;
* `Script.Node` — the tree;
* `Script.Node.child?` — the child in a role;
* `Script.Node.preorder` — all nodes, each before its descendants;
* `Script.Node.places` — all nodes with their surroundings;
* `Script.Node.asTarget?` — the assignment target that an expression spells.
-/

set_option relaxedAutoImplicit false
set_option autoImplicit false

namespace SketchHost

namespace Script

/-- The kinds of nodes. -/
inductive Kind where
  -- names
  | identifier | undefinedName | propertyName | privateName | labelName
  | shorthand | shorthandPattern
  -- literals
  | literal | regex | template | templateSubstitution | keyword
  -- composite expressions
  | object | array | pair | computedName | spread | coverInitializer
  | parenthesized | sequence | assignment | augmentedAssignment | ternary | binary | unary | update
  | await | yield | newExpression | call | arguments | member | subscript | metaProperty
  -- patterns
  | objectPattern | arrayPattern | pairPattern | restPattern | assignmentPattern
  | objectAssignmentPattern
  -- functions and classes
  | functionExpression | generatorExpression | arrowFunction | methodDefinition | formalParameters
  | classExpression | classHeritage | classBody | fieldDefinition | staticBlock
  -- declarations
  | functionDeclaration | generatorDeclaration | classDeclaration
  | lexicalDeclaration | variableDeclaration | variableDeclarator
  -- statements
  | program | expressionStatement | block | emptyStatement | ifStatement | elseClause
  | switchStatement | switchBody | switchCase | switchDefault
  | forStatement | forInStatement | whileStatement | doStatement
  | tryStatement | catchClause | finallyClause | withStatement
  | breakStatement | continueStatement | debuggerStatement | returnStatement | throwStatement
  | labeledStatement
  -- modules
  | importStatement | importClause | namedImports | importSpecifier | namespaceImport
  | importAttribute
  | exportStatement | exportClause | exportSpecifier | namespaceExport
deriving DecidableEq, Repr, Inhabited

/-- The roles that a child can play in its parent. -/
inductive Role where
  | plain
  | name | value | left | right | key | property | object | index
  | callee | arguments | parameters | parameter | body | declarationWord | initializer
  | condition | consequence | alternative | increment | alias | label | declaration | source
deriving DecidableEq, Repr, Inhabited

/-- A syntax tree. -/
inductive Node where
  | node (kind : Kind) (role : Role) (start stop : Nat) (text : String) (children : List Node)
deriving Inhabited, Repr

/-- A byte range of the source. -/
structure Span where
  start : Nat
  stop : Nat
deriving DecidableEq, Repr, Inhabited

namespace Node

/-- The kind of a node. -/
def kind : Node → Kind
  | node k _ _ _ _ _ => k

/-- The role of a node in its parent. -/
def role : Node → Role
  | node _ r _ _ _ _ => r

/-- The first byte of a node. -/
def start : Node → Nat
  | node _ _ a _ _ _ => a

/-- The end of a node, past its last byte. -/
def stop : Node → Nat
  | node _ _ _ b _ _ => b

/-- The text of a name; empty for other nodes. -/
def text : Node → String
  | node _ _ _ _ t _ => t

/-- The children of a node, in source order. -/
def children : Node → List Node
  | node _ _ _ _ _ cs => cs

@[simp] theorem kind_node (k r a b t cs) : (node k r a b t cs).kind = k := rfl
@[simp] theorem role_node (k r a b t cs) : (node k r a b t cs).role = r := rfl
@[simp] theorem start_node (k r a b t cs) : (node k r a b t cs).start = a := rfl
@[simp] theorem stop_node (k r a b t cs) : (node k r a b t cs).stop = b := rfl
@[simp] theorem text_node (k r a b t cs) : (node k r a b t cs).text = t := rfl
@[simp] theorem children_node (k r a b t cs) : (node k r a b t cs).children = cs := rfl

/-- The byte range of a node. -/
def span (n : Node) : Span := ⟨n.start, n.stop⟩

/-- The node in another role. -/
def withRole (r : Role) : Node → Node
  | node k _ a b t cs => node k r a b t cs

/-- The node as one of another kind. -/
def withKind (k : Kind) : Node → Node
  | node _ r a b t cs => node k r a b t cs

/-- The first child in a role. -/
def child? (r : Role) (n : Node) : Option Node :=
  n.children.find? fun c => c.role == r

/-! ### Traversal -/

/-- A node and its descendants, each before its own descendants, siblings from left to right. -/
def preorder : Node → List Node
  | node k r a b t cs => node k r a b t cs :: preorderAll cs
where
  /-- The nodes of several trees, one tree after the other. -/
  preorderAll : List Node → List Node
    | [] => []
    | c :: rest => preorder c ++ preorderAll rest

/-- A node in its place: the node, and the nodes around it from its parent to the root. -/
structure Place where
  node : Node
  above : List Node
deriving Inhabited

/-- The places of a tree in the order of `preorder`. -/
def places (above : List Node) : Node → List Place
  | node k r a b t cs =>
      let here := node k r a b t cs
      ⟨here, above⟩ :: placesAll (here :: above) cs
where
  /-- The places of several siblings. -/
  placesAll (above : List Node) : List Node → List Place
    | [] => []
    | c :: rest => places above c ++ placesAll above rest

/-- The parent of a place. -/
def Place.parent? (p : Place) : Option Node := p.above.head?

/-! ### Expressions as assignment targets -/

/-- The kinds that are an assignment target as they stand. -/
def isSimpleTarget (k : Kind) : Bool :=
  match k with
  | .identifier | .undefinedName | .member | .subscript | .objectPattern | .arrayPattern => true
  | _ => false

/-- Where in an assignment target an expression stands: on its own, as an element of a list pattern
or a parameter, or as a property of a record pattern. -/
inductive Slot where
  | alone
  | element
  | property
deriving DecidableEq, Repr

/-- The assignment target that an expression spells in its slot: a name, an access, or a pattern of
such, with default values and rests where the slot admits them. -/
def asTarget? (slot : Slot) : Node → Option Node
  | node k r a b t cs =>
      match slot, k, cs with
      | .property, .shorthand, _ => some (node .shorthandPattern r a b t cs)
      | .property, .coverInitializer, _ => some (node .objectAssignmentPattern r a b t cs)
      | .property, .pair, [key, value] =>
          (asTarget? .element value).map fun p => node .pairPattern r a b t [key, p]
      | .property, .spread, [rest] =>
          (asTarget? .alone rest).map fun p => node .restPattern r a b t [p]
      | .element, .spread, [rest] =>
          (asTarget? .alone rest).map fun p => node .restPattern r a b t [p]
      | .property, _, _ => none
      | .element, .assignment, [left, right] =>
          if isSimpleTarget left.kind then some (node .assignmentPattern r a b t [left, right])
          else none
      | _, .object, cs => (targets? .property cs).map (node .objectPattern r a b t)
      | _, .array, cs => (targets? .element cs).map (node .arrayPattern r a b t)
      | _, _, cs => if isSimpleTarget k then some (node k r a b t cs) else none
where
  /-- The targets that several expressions spell. -/
  targets? (slot : Slot) : List Node → Option (List Node)
    | [] => some []
    | c :: rest =>
        match asTarget? slot c, targets? slot rest with
        | some p, some ps => some (p :: ps)
        | _, _ => none

/-- The assignment target that an expression spells. -/
def asPattern? (n : Node) : Option Node :=
  asTarget? .alone n

/-- The parameters that a list of expressions spells. -/
def asParameters? (ns : List Node) : Option (List Node) :=
  asTarget?.targets? .element ns

end Node

end Script

end SketchHost
