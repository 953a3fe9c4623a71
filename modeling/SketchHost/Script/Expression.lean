/-
**The grammar of expressions.**

Readers for expressions, over readers for the parts they are made of (`Parts`): an operand, an
expression and a statement.  Every reader is an ordinary function of its parts; `Script.Parse` closes
the recursion once.  How binary operators group is not recorded, because no rule about names depends
on it: a run of operands is one node.

Assignment targets are read as expressions first and turned into patterns where an assignment sign or
an arrow follows.

* `Script.Parse` — a reader: from a cursor to a result and the cursor after it;
* `Script.Goal`, `Script.Parts` — the parts that a reader may call for;
* `Script.operand`, `Script.expression`, `Script.expressions` — operands, expressions, and expressions
  separated by commas;
* `Script.functionTail`, `Script.classTail`, `Script.block` — bodies that declarations share.
-/

import SketchHost.Script.Lexical
import SketchHost.Script.Node

set_option relaxedAutoImplicit false
set_option autoImplicit false

namespace SketchHost

namespace Script

/-! ### Readers -/

/-- A reader takes a cursor to a result and the cursor after it, or fails. -/
abbrev Parse := StateT Cursor Option

/-- The parts that a reader may call for. -/
inductive Goal where
  | operand
  | expression
  | statement
deriving DecidableEq, Repr

/-- The readers for the parts, and a bound on the number of items in a list. -/
structure Parts where
  bound : Nat
  read : Goal → Parse Node

/-- The place of the next token. -/
def here : Parse Cursor := do
  return (← get).skipTrivia

/-- The mark that the next token is; empty if it is none. -/
def peekMark : Parse String := do
  return (← here).mark

/-- The word that the next token is. -/
def peekWord : Parse (Option String) := do
  return (← here).word?.map (·.1)

/-- Reads a mark; the result is its place. -/
def mark (m : String) : Parse Nat := do
  let c ← here
  if c.mark == m then
    set (c.skip m.length)
    return c.offset
  else failure

/-- Reads a mark if it comes next. -/
def tryMark (m : String) : Parse Bool := do
  if (← peekMark) == m then
    let _ ← mark m
    return true
  else return false

/-- Reads a given word; the result is its place. -/
def keyword (w : String) : Parse Nat := do
  let c ← here
  match c.word? with
  | some (x, after) =>
      if x == w then
        set after
        return c.offset
      else failure
  | none => failure

/-- A node from a place to the end of what has been read. -/
def branch (kind : Kind) (start : Nat) (children : List Node) : Parse Node := do
  return .node kind .plain start (← get).offset "" children

/-- The words that name nothing, except as keys. -/
def reservedWords : List String :=
  ["break", "case", "catch", "class", "const", "continue", "debugger", "default", "delete", "do",
   "else", "export", "extends", "false", "finally", "for", "function", "if", "import", "in",
   "instanceof", "new", "null", "return", "super", "switch", "this", "throw", "true", "try",
   "typeof", "var", "void", "while", "with"]

/-- Reads a word as a node; reserved words only where `anyWord` is set. -/
def wordNode (anyWord : Bool) (kind : Kind) (role : Role) : Parse Node := do
  let c ← here
  match c.word? with
  | some (w, after) =>
      if anyWord || !reservedWords.contains w then
        set after
        return .node kind role c.offset after.offset w []
      else failure
  | none => failure

/-- Reads the name that a declaration introduces. -/
def declaredName (role : Role) : Parse Node :=
  wordNode false .identifier role

/-- Reads items separated by commas, up to a closing mark; an item that is left out is `none`, also
the one after a last comma. -/
def elements (item : Parse Node) (close : String) : Nat → Parse (List (Option Node))
  | 0 => failure
  | fuel + 1 => do
      let m ← peekMark
      if m == close then
        let _ ← mark close
        return [none]
      else if m == "," then
        let _ ← mark ","
        return none :: (← elements item close fuel)
      else
        let e ← item
        if ← tryMark "," then
          return some e :: (← elements item close fuel)
        else
          let _ ← mark close
          return [some e]

/-- The items of a list in which none is left out; a last comma is allowed. -/
def withoutHoles : List (Option Node) → Option (List Node)
  | [] => some []
  | [none] => some []
  | none :: _ => none
  | some e :: rest => (withoutHoles rest).map (e :: ·)

/-- A reader for a result that may be missing. -/
def orFail {α : Type} : Option α → Parse α
  | some a => return a
  | none => failure

/-- The place where a statement ends without a written semicolon, after the comments that precede
it. -/
def understoodEnd? (comments : Bool) : Nat → Cursor → Option Cursor
  | 0, _ => none
  | fuel + 1, c =>
      if endsStatement comments c.rest then some c
      else c.afterComment?.bind (understoodEnd? comments fuel)

/-- Whether a semicolon is understood at a place where an operator could follow, before or after the
comments there. -/
def endsBefore (g : Parts) (c : Cursor) : Bool :=
  (understoodEnd? false g.bound c).isSome

/-- Ends a statement with an understood semicolon, or else reads a written one. -/
def semicolon (g : Parts) (comments : Bool) : Parse Unit := do
  match understoodEnd? comments g.bound (← get) with
  | some c => set c
  | none =>
      let _ ← mark ";"
      return

/-! ### Lists and bodies -/

/-- An expression, or a spread. -/
def element (g : Parts) : Parse Node := do
  let c ← here
  if c.mark == "..." then
    let _ ← mark "..."
    let e ← g.read .expression
    branch .spread c.offset [e]
  else g.read .expression

/-- The items between a parenthesis that was read and its partner. -/
def closeParenthesis (g : Parts) : Parse (List (Option Node)) :=
  elements (element g) ")" g.bound

/-- Arguments in parentheses. -/
def argumentList (g : Parts) : Parse Node := do
  let start ← mark "("
  let items ← closeParenthesis g
  return (← branch .arguments start (items.filterMap id)).withRole .arguments

/-- Parameters from the items in parentheses that begin at `start`. -/
def parametersOf (start : Nat) (items : List (Option Node)) : Parse Node := do
  let exprs ← orFail (withoutHoles items)
  let params ← orFail (Node.asParameters? exprs)
  return (← branch .formalParameters start params).withRole .parameters

/-- Parameters in parentheses. -/
def parameters (g : Parts) : Parse Node := do
  let start ← mark "("
  parametersOf start (← closeParenthesis g)

/-- The statements up to a closing brace, which is read too. -/
def statementsToBrace (g : Parts) : Nat → Parse (List Node)
  | 0 => failure
  | fuel + 1 => do
      if ← tryMark "\x7d" then return []
      else
        let s ← g.read .statement
        return s :: (← statementsToBrace g fuel)

/-- A block of statements. -/
def block (g : Parts) : Parse Node := do
  let start ← mark "\x7b"
  let body ← statementsToBrace g g.bound
  return (← branch .block start body).withRole .body

/-- A function after its name: parameters and body. -/
def functionTail (g : Parts) : Parse (List Node) := do
  let ps ← parameters g
  let b ← block g
  return [ps, b]

/-- Expressions separated by commas. -/
def moreExpressions (g : Parts) : Nat → Parse (List Node)
  | 0 => return []
  | fuel + 1 => do
      if ← tryMark "," then
        let e ← g.read .expression
        return e :: (← moreExpressions g fuel)
      else return []

/-- One expression, or several separated by commas. -/
def expressions (g : Parts) : Parse Node := do
  let first ← g.read .expression
  match ← moreExpressions g g.bound with
  | [] => return first
  | rest => branch .sequence first.start (first :: rest)

/-- Expressions in parentheses. -/
def parenthesized (g : Parts) : Parse Node := do
  let start ← mark "("
  let e ← expressions g
  let _ ← mark ")"
  branch .parenthesized start [e]

/-! ### Arrow functions -/

/-- An arrow function after its parameters.  A brace after the arrow opens a block, unless what it
opens can only be a record. -/
def arrowTail (g : Parts) (start : Nat) (params : Node) : Parse Node := do
  let _ ← mark "=>"
  let body ← block g <|> g.read .expression
  branch .arrowFunction start [params, body.withRole .body]

/-- What a parenthesis opens: the parameters of an arrow function or an expression. -/
def parenthesis (g : Parts) : Parse Node := do
  let start ← mark "("
  let items ← closeParenthesis g
  if (← peekMark) == "=>" then
    arrowTail g start (← parametersOf start items)
  else
    let exprs ← orFail (items.mapM id)
    if exprs.any fun e => e.kind == .spread then failure
    else
      let stop := (← get).offset
      match exprs with
      | [] => failure
      | [e] => return .node .parenthesized .plain start stop "" [e]
      | e :: rest =>
          let last := rest.getLast?.getD e
          let inner := Node.node .sequence .plain e.start last.stop "" exprs
          return .node .parenthesized .plain start stop "" [inner]

/-! ### Names of properties -/

/-- The name of a property: a word, a private name, a string, a number, or a computed name. -/
def propertyKey (g : Parts) (role : Role) : Parse Node := do
  let c ← here
  match c.rest with
  | '#' :: _ =>
      match (c.skip 1).word? with
      | some (w, after) =>
          set after
          return .node .privateName role c.offset after.offset w []
      | none => failure
  | '[' :: _ =>
      let _ ← mark "["
      let e ← g.read .expression
      let _ ← mark "]"
      return (← branch .computedName c.offset [e]).withRole role
  | _ =>
      match c.word? with
      | some (w, after) =>
          set after
          return .node .propertyName role c.offset after.offset w []
      | none =>
          match c.string? <|> c.number? with
          | some after =>
              set after
              return .node .literal role c.offset after.offset "" []
          | none => failure

/-- Whether the name of a property comes next. -/
def beginsKey (c : Cursor) : Bool :=
  let d := c.skipTrivia
  d.word?.isSome || d.number?.isSome
    || d.rest.head?.any fun x => x == '#' || x == '[' || x == '\x27' || x == '\x22'

/-- Reads one of several words before the name of a property.  A word is one of them only if a name
follows, or a star where one may stand; inside a class, a line break that ends a field keeps it from
being one. -/
def modifier (inClass : Bool) (among : List String) (orStar : Bool) : Parse Bool := do
  let c ← here
  match c.word? with
  | some (w, after) =>
      if among.contains w && (beginsKey after || (orStar && after.skipTrivia.mark == "*"))
          && !(inClass && endsStatement true after.rest) then
        set after
        return true
      else return false
  | none => return false

/-- Reads the words before the name of a property: whether the property is static, and whether it can
only be a method. -/
def modifiers (inClass : Bool) : Parse (Bool × Bool) := do
  let isStatic ← modifier inClass ["static"] true
  let isAsync ← modifier inClass ["async"] true
  let isAccessor ← modifier inClass ["get", "set"] false
  if isAccessor then return (isStatic, true)
  else
    let isGenerator ← tryMark "*"
    return (isStatic, isAsync || isGenerator)

/-- A method after its name. -/
def methodTail (g : Parts) (start : Nat) (key : Node) : Parse Node := do
  let parts ← functionTail g
  branch .methodDefinition start (key.withRole .name :: parts)

/-! ### Records -/

/-- A property of a record. -/
def property (g : Parts) : Parse Node := do
  let c ← here
  if c.mark == "..." then element g
  else
    let (isStatic, isMethod) ← modifiers false
    let marked := isStatic || isMethod
    let key ← propertyKey g .key
    let plain := !marked && key.kind == .propertyName
    let m ← peekMark
    if m == "(" then methodTail g c.offset key
    else if marked then failure
    else if m == ":" then
      let _ ← mark ":"
      let value ← g.read .expression
      branch .pair c.offset [key, value.withRole .value]
    else if plain && !reservedWords.contains key.text then
      if m == "=" then
        let _ ← mark "="
        let value ← g.read .expression
        branch .coverInitializer c.offset
          [(key.withKind .shorthandPattern).withRole .left, value.withRole .right]
      else return (key.withKind .shorthand).withRole .plain
    else failure

/-- A record. -/
def record (g : Parts) : Parse Node := do
  let start ← mark "\x7b"
  let items ← elements (property g) "\x7d" g.bound
  branch .object start (items.filterMap id)

/-- A list. -/
def list (g : Parts) : Parse Node := do
  let start ← mark "["
  let items ← elements (element g) "]" g.bound
  branch .array start (items.filterMap id)

/-! ### Templates -/

/-- The substitutions of a template whose text begins here. -/
def substitutions (g : Parts) : Nat → Parse (List Node)
  | 0 => failure
  | fuel + 1 => do
      let c ← get
      match templateText? (c.rest.length + 1) c with
      | none => failure
      | some (.close, after) =>
          set after
          return []
      | some (.substitution, after) =>
          set after
          let e ← expressions g
          let _ ← mark "\x7d"
          let s ← branch .templateSubstitution (after.offset - 2) [e]
          return s :: (← substitutions g fuel)

/-- A template. -/
def template (g : Parts) : Parse Node := do
  let start ← mark "\x60"
  let parts ← substitutions g g.bound
  branch .template start parts

/-! ### Classes -/

/-- A member of a class. -/
def member (g : Parts) : Parse Node := do
  let c ← here
  let isStaticBlock := match c.word? with
    | some ("static", after) => after.skipTrivia.mark == "\x7b"
    | _ => false
  if isStaticBlock then
    let _ ← keyword "static"
    let b ← block g
    branch .staticBlock c.offset [b]
  else
    let (_, isMethod) ← modifiers true
    let key ← propertyKey g .property
    if (← peekMark) == "(" then methodTail g c.offset key
    else if isMethod then failure
    else
      let value ←
        if ← tryMark "=" then
          let v ← g.read .expression
          pure [v.withRole .value]
        else pure []
      let field ← branch .fieldDefinition c.offset (key :: value)
      semicolon g value.isEmpty
      return field

/-- The members of a class up to its closing brace, which is read too. -/
def members (g : Parts) : Nat → Parse (List Node)
  | 0 => failure
  | fuel + 1 => do
      if ← tryMark "\x7d" then return []
      else if ← tryMark ";" then members g fuel
      else
        let m ← member g
        return m :: (← members g fuel)

/-- A class after its name. -/
def classTail (g : Parts) : Parse (List Node) := do
  let heritage ←
    if (← peekWord) == some "extends" then
      let start ← keyword "extends"
      let e ← g.read .expression
      pure [← branch .classHeritage start [e]]
    else pure []
  let start ← mark "\x7b"
  let ms ← members g g.bound
  let body ← branch .classBody start ms
  return heritage ++ [body.withRole .body]

/-- A name, if a word that names something comes next. -/
def optionalName : Parse (List Node) := do
  match ← peekWord with
  | some w => if reservedWords.contains w then return [] else return [← declaredName .name]
  | none => return []

/-- A class expression. -/
def classExpression (g : Parts) : Parse Node := do
  let start ← keyword "class"
  let name ← optionalName
  let rest ← classTail g
  branch .classExpression start (name ++ rest)

/-! ### Functions -/

/-- A function after its first word, which began at `start`. -/
def functionExpression (g : Parts) (start : Nat) : Parse Node := do
  let _ ← keyword "function"
  let isGenerator ← tryMark "*"
  let name ← optionalName
  let rest ← functionTail g
  branch (if isGenerator then .generatorExpression else .functionExpression) start (name ++ rest)

/-- What the word `async` begins: a function, an arrow function, a call, or a name. -/
def asyncForm (g : Parts) : Parse Node := do
  let c ← here
  let name ← wordNode false .identifier .plain
  let after ← get
  if (← peekMark) == "=>" then arrowTail g c.offset (name.withRole .parameter)
  else if (← peekMark) == "(" then
    let start ← mark "("
    let items ← closeParenthesis g
    if (← peekMark) == "=>" then arrowTail g c.offset (← parametersOf start items)
    else
      let args ← branch .arguments start (items.filterMap id)
      branch .call c.offset [name.withRole .callee, args.withRole .arguments]
  else if endsBefore g after then return name
  else
    match ← peekWord with
    | some "function" => functionExpression g c.offset
    | some w =>
        if reservedWords.contains w then return name
        else
          (do let param ← wordNode false .identifier .parameter
              arrowTail g c.offset param)
            <|> return name
    | none => return name

/-! ### Primary expressions -/

/-- What the word `import` begins in an expression. -/
def importForm : Parse Node := do
  let start ← keyword "import"
  let m ← peekMark
  if m == "." then
    let _ ← mark "."
    let _ ← keyword "meta"
    branch .metaProperty start []
  else if m == "(" then branch .keyword start []
  else failure

/-- The words that are an expression of their own and no name. -/
def isConstantWord (w : String) : Bool :=
  ["this", "super", "null", "true", "false"].contains w

/-- An expression that no operator, access or call takes part in, `new` apart. -/
def primary (g : Parts) : Parse Node := do
  let c ← here
  match c.word? with
  | some (w, after) =>
      if w == "function" then functionExpression g c.offset
      else if w == "async" then asyncForm g
      else if w == "class" then classExpression g
      else if w == "import" then importForm
      else if isConstantWord w then
        set after
        branch .keyword c.offset []
      else if w == "undefined" then
        set after
        return .node .undefinedName .plain c.offset after.offset w []
      else
        let name ← wordNode false .identifier .plain
        if (← peekMark) == "=>" then arrowTail g c.offset (name.withRole .parameter)
        else return name
  | none =>
      match c.string? <|> c.number? with
      | some after =>
          set after
          branch .literal c.offset []
      | none =>
          match c.rest.head? with
          | some '(' => parenthesis g
          | some '[' => list g
          | some '\x7b' => record g
          | some '\x60' => template g
          | some '/' =>
              match c.regex? with
              | some after =>
                  set after
                  branch .regex c.offset []
              | none => failure
          | _ => failure

/-- The property after a point. -/
def accessed (start : Nat) (object : Node) : Parse Node := do
  let c ← here
  let (kind, c) := if c.rest.head? == some '#' then (Kind.privateName, c.skip 1)
    else (Kind.propertyName, c)
  match c.word? with
  | some (w, after) =>
      let from_ := (← here).offset
      set after
      branch .member start
        [object.withRole .object, .node kind .property from_ after.offset w []]
  | none => failure

/-- The accesses and calls after an expression; calls only where `calls` is set. -/
def accesses (g : Parts) (calls : Bool) : Nat → Node → Parse Node
  | 0, left => return left
  | fuel + 1, left => do
      let c ← here
      let m := c.mark
      let index : Parse Node := do
        let _ ← mark "["
        let e ← expressions g
        let _ ← mark "]"
        branch .subscript left.start [left.withRole .object, e.withRole .index]
      let call : Parse Node := do
        let args ← argumentList g
        branch .call left.start [left.withRole .callee, args]
      if m == "." && c.number?.isNone then
        let _ ← mark "."
        accesses g calls fuel (← accessed left.start left)
      else if m == "?." then
        let _ ← mark "?."
        let next ← peekMark
        if next == "(" then accesses g calls fuel (← call)
        else if next == "[" then accesses g calls fuel (← index)
        else accesses g calls fuel (← accessed left.start left)
      else if m == "[" then accesses g calls fuel (← index)
      else if m == "(" && calls then accesses g calls fuel (← call)
      else if m == "\x60" then
        let t ← template g
        let tagged ← branch .call left.start [left.withRole .callee, t.withRole .arguments]
        accesses g calls fuel tagged
      else return left

/-- An object creation: after `new` a constructor without calls, and arguments if there are any. -/
def creation (g : Parts) : Nat → Parse Node
  | 0 => failure
  | fuel + 1 => do
      let start ← keyword "new"
      if ← tryMark "." then
        let _ ← keyword "target"
        branch .metaProperty start []
      else
        let base ← if (← peekWord) == some "new" then creation g fuel else primary g
        let constructor ← accesses g false g.bound base
        if (← peekMark) == "(" then
          let args ← argumentList g
          branch .newExpression start [constructor, args]
        else branch .newExpression start [constructor]

/-- An expression that may stand left of an assignment sign. -/
def leftHand (g : Parts) : Parse Node := do
  let base ← if (← peekWord) == some "new" then creation g g.bound else primary g
  accesses g true g.bound base

/-! ### Operands -/

/-- The signs that assign and compute. -/
def augmentedMarks : List String :=
  ["+=", "-=", "*=", "/=", "%=", "^=", "&=", "|=", ">>=", ">>>=", "<<=", "**=", "&&=", "||=", "??="]

/-- Whether an expression may stand left of a sign that assigns and computes. -/
def isUpdatable (k : Kind) : Bool :=
  match k with
  | .identifier | .member | .subscript | .parenthesized => true
  | _ => false

/-- What follows an expression that may be assigned to: an assignment, an increment, or nothing. -/
def assignmentTail (g : Parts) (left : Node) : Parse Node := do
  let m ← peekMark
  if m == "=" then
    let target ← orFail (if left.kind == .parenthesized then some left else left.asPattern?)
    let _ ← mark "="
    let right ← g.read .expression
    branch .assignment left.start [target.withRole .left, right.withRole .right]
  else if augmentedMarks.contains m && isUpdatable left.kind then
    let _ ← mark m
    let right ← g.read .expression
    branch .augmentedAssignment left.start [left.withRole .left, right.withRole .right]
  else if (m == "++" || m == "--") && !endsBefore g (← get) then
    let _ ← mark m
    branch .update left.start [left]
  else return left

/-- The words that are unary operators. -/
def isUnaryWord (w : String) : Bool :=
  ["typeof", "void", "delete"].contains w

/-- An operand after a unary operator. -/
def unaryTail (g : Parts) (kind : Kind) (start : Nat) : Parse Node := do
  let e ← g.read .operand
  branch kind start [e]

/-- A yield; its operand may be missing. -/
def yieldForm (g : Parts) : Parse Node := do
  let start ← keyword "yield"
  if ← tryMark "*" then
    let e ← g.read .expression
    branch .yield start [e]
  else if endsBefore g (← get) then branch .yield start []
  else
    (do let e ← g.read .expression
        branch .yield start [e])
      <|> branch .yield start []

/-- An operand of a binary operator: a unary operator with its operand, an assignment, or an access,
call or primary expression. -/
def operand (g : Parts) : Parse Node := do
  let c ← here
  match c.word? with
  | some (w, after) =>
      if isUnaryWord w then
        set after
        unaryTail g .unary c.offset
      else if w == "await" then
        set after
        unaryTail g .await c.offset
      else if w == "yield" then yieldForm g
      else assignmentTail g (← leftHand g)
  | none =>
      let m := c.mark
      if m == "!" || m == "~" || m == "+" || m == "-" then
        let _ ← mark m
        unaryTail g .unary c.offset
      else if m == "++" || m == "--" then
        let _ ← mark m
        unaryTail g .update c.offset
      else if c.rest.head? == some '#' then
        let name ← propertyKey g .plain
        if (← peekWord) == some "in" then return name else failure
      else assignmentTail g (← leftHand g)

/-! ### Expressions -/

/-- The marks between two operands. -/
def binaryMarks : List String :=
  ["&&", "||", ">>", ">>>", "<<", "&", "^", "|", "+", "-", "*", "/", "%", "**", "<", "<=", "==",
   "===", "!=", "!==", ">=", ">", "??"]

/-- The operands after the first one. -/
def moreOperands (g : Parts) : Nat → Parse (List Node)
  | 0 => return []
  | fuel + 1 => do
      let c ← here
      let after? : Option Cursor :=
        match c.word? with
        | some (w, after) => if w == "in" || w == "instanceof" then some after else none
        | none => if binaryMarks.contains c.mark then some (c.skip c.mark.length) else none
      match after? with
      | none => return []
      | some after =>
          set after
          let e ← g.read .operand
          return e :: (← moreOperands g fuel)

/-- An expression without commas: operands between binary operators, and a choice if a question mark
follows them. -/
def expression (g : Parts) : Parse Node := do
  let first ← g.read .operand
  let chain ←
    match ← moreOperands g g.bound with
    | [] => pure first
    | rest => branch .binary first.start (first :: rest)
  if ← tryMark "?" then
    let yes ← g.read .expression
    let _ ← mark ":"
    let no ← g.read .expression
    branch .ternary chain.start
      [chain.withRole .condition, yes.withRole .consequence, no.withRole .alternative]
  else return chain

end Script

end SketchHost
