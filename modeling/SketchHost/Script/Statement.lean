/-
**The grammar of statements.**

Readers for statements and declarations, over the readers for their parts.

* `Script.declaratorTail`, `Script.declaration` — variable declarations;
* `Script.functionDeclaration`, `Script.classDeclaration` — named functions and classes;
* `Script.forLoop`, `Script.importStatement`, `Script.exportStatement` — the statements with heads of
  their own;
* `Script.statement` — any statement.
-/

import SketchHost.Script.Expression

set_option relaxedAutoImplicit false
set_option autoImplicit false

namespace SketchHost

namespace Script

/-! ### Variables -/

/-- The target that a declaration introduces: a name or a pattern. -/
def declaredTarget (g : Parts) (role : Role) : Parse Node := do
  let m ← peekMark
  if m == "[" then
    return (← orFail (← list g).asPattern?).withRole role
  else if m == "\x7b" then
    return (← orFail (← record g).asPattern?).withRole role
  else declaredName role

/-- One variable of a declaration, after its target. -/
def declaratorTail (g : Parts) (target : Node) : Parse Node := do
  if ← tryMark "=" then
    let value ← g.read .expression
    branch .variableDeclarator target.start [target, value.withRole .value]
  else branch .variableDeclarator target.start [target]

/-- The further variables of a declaration. -/
def moreDeclarators (g : Parts) : Nat → Parse (List Node)
  | 0 => return []
  | fuel + 1 => do
      if ← tryMark "," then
        let d ← declaratorTail g (← declaredTarget g .name)
        return d :: (← moreDeclarators g fuel)
      else return []

/-- A declaration of variables after its first target, up to its semicolon. -/
def declarationTail (g : Parts) (kind : Kind) (start : Nat) (target : Node) : Parse Node := do
  let first ← declaratorTail g target
  let ds := first :: (← moreDeclarators g g.bound)
  let lastIsBare := ((ds.getLast?.map fun d => (d.child? .value).isNone)).getD false
  semicolon g lastIsBare
  branch kind start ds

/-- The kind of the declarations that a word begins. -/
def declarationKind (w : String) : Kind :=
  if w == "var" then .variableDeclaration else .lexicalDeclaration

/-- A declaration of variables. -/
def declaration (g : Parts) (w : String) : Parse Node := do
  let start ← keyword w
  let target ← declaredTarget g .name
  declarationTail g (declarationKind w) start target

/-- Whether a target of a declaration follows a place. -/
def targetFollows (after : Cursor) : Bool :=
  let c := after.skipTrivia
  match c.word? with
  | some (w, _) => !reservedWords.contains w
  | none => c.mark == "[" || c.mark == "\x7b"

/-- Whether the word `let` before this place begins a declaration that is a statement: a target
follows it, and no line end makes a statement of the word itself. -/
def letDeclares (g : Parts) (after : Cursor) : Bool :=
  !endsBefore g after && targetFollows after

/-! ### Functions and classes -/

/-- Whether what follows a function can only carry on an expression. -/
def carriesOn (c : Cursor) : Bool :=
  let d := c.skipTrivia
  match d.word? with
  | some (w, _) => w == "in" || w == "instanceof"
  | none =>
      (d.number?.isNone && (d.mark == "." || d.mark == "?." || d.mark == "?" || d.mark == ","))
        || (binaryMarks.contains d.mark && !(["+", "-", "/"].contains d.mark))

/-- A named function.  Its range ends where a semicolon would be understood after it, if one would. -/
def functionDeclaration (g : Parts) : Parse Node := do
  let c ← here
  if (← peekWord) == some "async" then
    let _ ← keyword "async"
  let _ ← keyword "function"
  let isGenerator ← tryMark "*"
  let name ← declaredName .name
  let rest ← functionTail g
  let after ← get
  match understoodEnd? false g.bound after with
  | some c => set c
  | none => if carriesOn after then failure
  branch (if isGenerator then .generatorDeclaration else .functionDeclaration) c.offset (name :: rest)

/-- A named class. -/
def classDeclaration (g : Parts) : Parse Node := do
  let start ← keyword "class"
  let name ← declaredName .name
  let rest ← classTail g
  branch .classDeclaration start (name :: rest)

/-! ### Plain statements -/

/-- Expressions as a statement. -/
def expressionStatement (g : Parts) : Parse Node := do
  let e ← expressions g
  semicolon g false
  branch .expressionStatement e.start [e]

/-- A conditional. -/
def ifStatement (g : Parts) : Parse Node := do
  let start ← keyword "if"
  let test ← parenthesized g
  let yes ← g.read .statement
  let parts := [test.withRole .condition, yes.withRole .consequence]
  if (← peekWord) == some "else" then
    let at_ ← keyword "else"
    let no ← g.read .statement
    let clause ← branch .elseClause at_ [no]
    branch .ifStatement start (parts ++ [clause.withRole .alternative])
  else branch .ifStatement start parts

/-- Whether a case, a default or the closing brace of a switch comes next. -/
def atCase : Parse Bool := do
  let w ← peekWord
  return w == some "case" || w == some "default" || (← peekMark) == "\x7d"

/-- The statements of a case. -/
def caseBody (g : Parts) : Nat → Parse (List Node)
  | 0 => failure
  | fuel + 1 => do
      if ← atCase then return []
      else
        let s ← g.read .statement
        return s :: (← caseBody g fuel)

/-- The cases of a switch, up to its closing brace, which is read too. -/
def cases (g : Parts) : Nat → Parse (List Node)
  | 0 => failure
  | fuel + 1 => do
      if ← tryMark "\x7d" then return []
      else if (← peekWord) == some "default" then
        let start ← keyword "default"
        let _ ← mark ":"
        let body ← caseBody g g.bound
        let c ← branch .switchDefault start body
        return c :: (← cases g fuel)
      else
        let start ← keyword "case"
        let value ← expressions g
        let _ ← mark ":"
        let body ← caseBody g g.bound
        let c ← branch .switchCase start (value.withRole .value :: body)
        return c :: (← cases g fuel)

/-- A switch. -/
def switchStatement (g : Parts) : Parse Node := do
  let start ← keyword "switch"
  let value ← parenthesized g
  let open_ ← mark "\x7b"
  let cs ← cases g g.bound
  let body ← branch .switchBody open_ cs
  branch .switchStatement start [value.withRole .value, body.withRole .body]

/-- A try with its clauses, of which both may be missing. -/
def tryStatement (g : Parts) : Parse Node := do
  let start ← keyword "try"
  let body ← block g
  let handler ←
    if (← peekWord) == some "catch" then
      let at_ ← keyword "catch"
      let parameter ←
        if ← tryMark "(" then
          let p ← declaredTarget g .parameter
          let _ ← mark ")"
          pure [p]
        else pure []
      let b ← block g
      pure [← branch .catchClause at_ (parameter ++ [b])]
    else pure []
  let finalizer ←
    if (← peekWord) == some "finally" then
      let at_ ← keyword "finally"
      let b ← block g
      pure [← branch .finallyClause at_ [b]]
    else pure []
  branch .tryStatement start (body :: handler ++ finalizer)

/-- A statement with a word, parentheses and a body. -/
def guarded (g : Parts) (w : String) (kind : Kind) : Parse Node := do
  let start ← keyword w
  let test ← parenthesized g
  let body ← g.read .statement
  branch kind start [test.withRole .condition, body.withRole .body]

/-- A loop with its test at the end. -/
def doStatement (g : Parts) : Parse Node := do
  let start ← keyword "do"
  let body ← g.read .statement
  let _ ← keyword "while"
  let test ← parenthesized g
  match understoodEnd? true g.bound (← get) with
  | some c => set c
  | none =>
      let _ ← tryMark ";"
  branch .doStatement start [body.withRole .body, test.withRole .condition]

/-- A jump, with a label if one follows on the line. -/
def jump (g : Parts) (w : String) (kind : Kind) : Parse Node := do
  let start ← keyword w
  let label ←
    match understoodEnd? true g.bound (← get) with
    | some _ => pure []
    | none => if (← peekMark) == ";" then pure [] else pure [← wordNode false .labelName .label]
  semicolon g true
  branch kind start label

/-- A return, with a value if one follows on the line. -/
def returnStatement (g : Parts) : Parse Node := do
  let start ← keyword "return"
  match understoodEnd? true g.bound (← get) with
  | some c =>
      set c
      branch .returnStatement start []
  | none =>
      if ← tryMark ";" then branch .returnStatement start []
      else
        let e ← expressions g
        semicolon g false
        branch .returnStatement start [e]

/-! ### Loops -/

/-- The word between the target and the subject of a loop over a collection. -/
def loopWord : Parse Unit := do
  let w ← peekWord
  if w == some "in" || w == some "of" then
    let _ ← keyword (w.getD "")
    return
  else failure

/-- The rest of a loop over a collection, after its target. -/
def overTail (g : Parts) (start : Nat) (head : List Node) : Parse Node := do
  loopWord
  let right ← expressions g
  let _ ← mark ")"
  let body ← g.read .statement
  branch .forInStatement start (head ++ [right.withRole .right, body.withRole .body])

/-- The rest of a counting loop, after its initializer and the semicolon that ends it. -/
def countTail (g : Parts) (start : Nat) (initializer : List Node) : Parse Node := do
  let condition ←
    if ← tryMark ";" then pure []
    else
      let e ← expressions g
      let _ ← mark ";"
      pure [e.withRole .condition]
  let increment ←
    if (← peekMark) == ")" then pure []
    else pure [(← expressions g).withRole .increment]
  let _ ← mark ")"
  let body ← g.read .statement
  branch .forStatement start (initializer ++ condition ++ increment ++ [body.withRole .body])

/-- The word that begins the declaration in the head of a loop, if there is one. -/
def headWord : Parse (Option String) := do
  let c ← here
  match c.word? with
  | some (w, after) =>
      if w == "var" || w == "const" then return some w
      else if w == "let" && targetFollows after then
        -- a target named like the loop word is taken for it
        match after.skipTrivia.word? with
        | some ("of", _) => return none
        | _ => return some w
      else return none
  | none => return none

/-- A loop whose head declares its variables.  A loop that awaits runs over a collection. -/
def declaringLoop (g : Parts) (start : Nat) (awaits : Bool) (w : String) : Parse Node := do
  let at_ ← keyword w
  let word ← branch .keyword at_ []
  let target ← declaredTarget g .left
  let next ← peekWord
  if (next == some "in" || next == some "of")
      && !(w == "var" && endsStatement true (← get).rest) then
    overTail g start [word.withRole .declarationWord, target]
  else if awaits then failure
  else
    let d ← declarationTail g (declarationKind w) at_ (target.withRole .name)
    countTail g start [d.withRole .initializer]

/-- A loop over a collection whose head assigns to what is there already. -/
def assigningLoop (g : Parts) (start : Nat) : Parse Node := do
  let left ← leftHand g
  let target ← orFail (if left.kind == .parenthesized then some left else left.asPattern?)
  overTail g start [target.withRole .left]

/-- A loop that counts without declaring. -/
def countingLoop (g : Parts) (start : Nat) : Parse Node := do
  if ← tryMark ";" then countTail g start []
  else
    let e ← expressions g
    let _ ← mark ";"
    countTail g start [e.withRole .initializer]

/-- A loop with the word `for`. -/
def forLoop (g : Parts) : Parse Node := do
  let start ← keyword "for"
  let awaits := (← peekWord) == some "await"
  if awaits then
    let _ ← keyword "await"
  let _ ← mark "("
  match ← headWord with
  | some w => declaringLoop g start awaits w
  | none => if awaits then assigningLoop g start else assigningLoop g start <|> countingLoop g start

/-! ### Modules -/

/-- A string as the source of a module. -/
def moduleSource : Parse Node := do
  let c ← here
  match c.string? with
  | some after =>
      set after
      return .node .literal .source c.offset after.offset "" []
  | none => failure

/-- A name in a list of imports or exports: any word, or a string. -/
def externalName (role : Role) : Parse Node := do
  let c ← here
  match c.string? with
  | some after =>
      set after
      return .node .literal role c.offset after.offset "" []
  | none => wordNode true .identifier role

/-- A name in a list of imports or exports, with the name it gets. -/
def specifier (kind : Kind) : Parse Node := do
  let name ← externalName .name
  if (← peekWord) == some "as" then
    let _ ← keyword "as"
    let other ← externalName .alias
    branch kind name.start [name, other]
  else branch kind name.start [name]

/-- A list of names in braces. -/
def specifiers (g : Parts) (list item : Kind) : Parse Node := do
  let start ← mark "\x7b"
  let items ← orFail (withoutHoles (← elements (specifier item) "\x7d" g.bound))
  branch list start items

/-- All names of a module under one name. -/
def namespaceName (kind : Kind) (name : Parse Node) : Parse Node := do
  let start ← mark "*"
  let _ ← keyword "as"
  let n ← name
  branch kind start [n]

/-- What an import statement binds besides a default name. -/
def importedNames (g : Parts) : Parse Node := do
  if (← peekMark) == "*" then namespaceName .namespaceImport (declaredName .plain)
  else specifiers g .namedImports .importSpecifier

/-- What an import statement binds. -/
def importClause (g : Parts) : Parse Node := do
  let c ← here
  if c.word?.isSome then
    let name ← declaredName .plain
    if ← tryMark "," then
      let more ← importedNames g
      branch .importClause c.offset [name, more]
    else branch .importClause c.offset [name]
  else
    let names ← importedNames g
    branch .importClause c.offset [names]

/-- An import. -/
def importStatement (g : Parts) : Parse Node := do
  let start ← keyword "import"
  let parts ←
    (do return [← moduleSource])
      <|> (do let clause ← importClause g
              let _ ← keyword "from"
              return [clause, ← moduleSource])
  let options ←
    if (← peekWord) == some "with" then
      let at_ ← keyword "with"
      let o ← record g
      pure [← branch .importAttribute at_ [o]]
    else pure []
  semicolon g true
  branch .importStatement start (parts ++ options)

/-- The declaration that may stand after `export`. -/
def exportedDeclaration (g : Parts) : Parse Node := do
  match ← peekWord with
  | some w =>
      if w == "var" || w == "let" || w == "const" then declaration g w
      else if w == "class" then classDeclaration g
      else functionDeclaration g
  | none => failure

/-- What is exported from a module or from here. -/
def exportedNames (g : Parts) : Parse (List Node) := do
  if (← peekMark) == "*" then
    let all ←
      (do return [← namespaceName .namespaceExport (externalName .plain)])
        <|> (do let _ ← mark "*"
                return [])
    let _ ← keyword "from"
    return all ++ [← moduleSource]
  else
    let clause ← specifiers g .exportClause .exportSpecifier
    if (← peekWord) == some "from" then
      let _ ← keyword "from"
      return [clause, ← moduleSource]
    else return [clause]

/-- An export. -/
def exportStatement (g : Parts) : Parse Node := do
  let start ← keyword "export"
  let m ← peekMark
  if m == "*" || m == "\x7b" then
    let parts ← exportedNames g
    semicolon g true
    branch .exportStatement start parts
  else if (← peekWord) == some "default" then
    let _ ← keyword "default"
    (do let d ← functionDeclaration g <|> classDeclaration g
        branch .exportStatement start [d.withRole .declaration])
      <|> (do let e ← g.read .expression
              semicolon g false
              branch .exportStatement start [e.withRole .value])
  else
    let d ← exportedDeclaration g
    branch .exportStatement start [d.withRole .declaration]

/-! ### Statements -/

/-- The statement that a word begins. -/
def wordStatement (g : Parts) (w : String) (after : Cursor) : Parse Node := do
  let next := after.skipTrivia
  let followedBy (x : String) : Bool := next.word?.map (·.1) == some x
  match w with
  | "var" => declaration g w
  | "const" => declaration g w
  | "let" => if letDeclares g after then declaration g w else expressionStatement g
  | "function" => functionDeclaration g <|> expressionStatement g
  | "async" =>
      if followedBy "function" && !endsBefore g after then
        functionDeclaration g <|> expressionStatement g
      else expressionStatement g
  | "class" => classDeclaration g <|> expressionStatement g
  | "if" => ifStatement g
  | "for" => forLoop g
  | "while" => guarded g w .whileStatement
  | "with" => guarded g w .withStatement
  | "do" => doStatement g
  | "switch" => switchStatement g
  | "try" => tryStatement g
  | "break" => jump g w .breakStatement
  | "continue" => jump g w .continueStatement
  | "debugger" =>
      let start ← keyword w
      semicolon g true
      branch .debuggerStatement start []
  | "return" => returnStatement g
  | "throw" =>
      let start ← keyword w
      let e ← expressions g
      semicolon g false
      branch .throwStatement start [e]
  | "import" =>
      if next.mark == "(" || next.mark == "." then expressionStatement g else importStatement g
  | "export" => exportStatement g
  | _ => expressionStatement g

/-- A statement with a label. -/
def labeledStatement (g : Parts) : Parse Node := do
  let label ← wordNode false .labelName .label
  let _ ← mark ":"
  let body ← g.read .statement
  branch .labeledStatement label.start [label, body.withRole .body]

/-- Whether the word at a place is a label. -/
def isLabel (w : String) (after : Cursor) : Bool :=
  after.skipTrivia.mark == ":" && !reservedWords.contains w && w != "await" && w != "yield"

/-- A statement.  A brace opens a block, unless what it opens can only be a record. -/
def statement (g : Parts) : Parse Node := do
  let c ← here
  match c.word? with
  | some (w, after) =>
      if isLabel w after then labeledStatement g else wordStatement g w after
  | none =>
      if c.mark == ";" then
        let start ← mark ";"
        branch .emptyStatement start []
      else if c.mark == "\x7b" then
        (do return (← block g).withRole .plain) <|> expressionStatement g
      else expressionStatement g

end Script

end SketchHost
