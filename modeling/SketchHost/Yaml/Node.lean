/-
**Nodes of YAML.**

The tree that the tokens of a text spell.  A name for a node is replaced by the node.

* `Yaml.Node` — a node: a scalar, a list, or a record;
* `Yaml.Stream` — the tokens ahead, and the nodes that have a name;
* `Yaml.node` — a node, between blocks or between brackets;
* `Yaml.document?` — the node of a text; `some none` if the text is empty.
-/

import SketchHost.Yaml.Token

set_option relaxedAutoImplicit false
set_option autoImplicit false

namespace SketchHost

namespace Yaml

/-- A node, with its tag if one is written. -/
inductive Node where
  | scalar (tag? : Option String) (text : List Char) (plain : Bool)
  | list (tag? : Option String) (items : List Node)
  | record (tag? : Option String) (fields : List (Node × Node))
deriving Inhabited, Repr

/-- A scalar that is left out. -/
def Node.blank : Node := .scalar none [] true

/-- The tokens ahead, and the nodes that have a name. -/
structure Stream where
  tokens : List Token
  named : List (String × Node)

/-- A reader of nodes. -/
abbrev Build := StateT Stream Option

/-- The next token. -/
def peek : Build (Option Token) := do
  return (← get).tokens.head?

/-- Past the next token. -/
def advance : Build Unit :=
  modify fun s => { s with tokens := s.tokens.tail }

/-- Reads a token if it comes next. -/
def accept (t : Token) : Build Bool := do
  if (← peek) == some t then
    advance
    return true
  else return false

/-- Reads a token. -/
def expect (t : Token) : Build Unit := do
  if ← accept t then return else failure

/-- Whether the next token is one of several. -/
def nextIn (ts : List Token) : Build Bool := do
  return (← peek).any ts.contains

/-- The node that a name stands for. -/
def named (name : String) : Build Node := do
  match (← get).named.lookup name with
  | some n => return n
  | none => failure

/-- Gives a node a name, which must be new. -/
def nameNode (name : String) (n : Node) : Build Unit := do
  if ((← get).named.lookup name).isSome then failure
  else modify fun s => { s with named := (name, n) :: s.named }

/-- The name and the tag before a node, in either order. -/
def properties : Build (Option String × Option String) := do
  match ← peek with
  | some (.anchor name) =>
      advance
      match ← peek with
      | some (.tag t) =>
          advance
          return (some name, some t)
      | _ => return (some name, none)
  | some (.tag t) =>
      advance
      match ← peek with
      | some (.anchor name) =>
          advance
          return (some name, some t)
      | _ => return (none, some t)
  | _ => return (none, none)

/-- How a node may be written where it stands: between brackets, as a block, or as a block whose
items may stand as far left as the key. -/
inductive Setting where
  | brackets
  | blocks
  | blocksOrItems
deriving DecidableEq, Repr

mutual

/-- A node, with its name and its tag. -/
def node : Nat → Setting → Build Node
  | 0, _ => failure
  | fuel + 1, setting => do
      match ← peek with
      | some (.alias name) =>
          advance
          named name
      | _ =>
          let (name?, tag?) ← properties
          let n ← content fuel setting tag? (name?.isSome || tag?.isSome)
          match name? with
          | some name =>
              nameNode name n
              return n
          | none => return n

/-- The content of a node; it may be left out after a name or a tag. -/
def content : Nat → Setting → Option String → Bool → Build Node
  | 0, _, _, _ => failure
  | fuel + 1, setting, tag?, optional => do
      match ← peek with
      | some (.scalar text plain) =>
          advance
          return .scalar tag? text plain
      | some .openList =>
          advance
          return .list tag? (← inlineItems fuel true)
      | some .openRecord =>
          advance
          return .record tag? (← inlineFields fuel true)
      | some .listBlock =>
          if setting == .brackets then failure
          else
            advance
            return .list tag? (← blockItems fuel true)
      | some .recordBlock =>
          if setting == .brackets then failure
          else
            advance
            return .record tag? (← blockFields fuel)
      | some .entry =>
          if setting == .blocksOrItems then return .list tag? (← blockItems fuel false)
          else failure
      | _ => if optional then return .scalar tag? [] true else failure

/-- A node, or a blank where a token shows that it is left out. -/
def nodeUnless : Nat → Setting → List Token → Build Node
  | 0, _, _ => failure
  | fuel + 1, setting, stops => do
      if ← nextIn stops then return Node.blank else node fuel setting

/-- The items of a block of items; `closed` tells whether the block has an end of its own. -/
def blockItems : Nat → Bool → Build (List Node)
  | 0, _ => failure
  | fuel + 1, closed => do
      if ← accept .entry then
        let stops := if closed then [.entry, .blockEnd] else [.entry, .key, .value, .blockEnd]
        let item ← nodeUnless fuel .blocks stops
        return item :: (← blockItems fuel closed)
      else if closed then
        expect .blockEnd
        return []
      else return []

/-- The fields of a block of fields. -/
def blockFields : Nat → Build (List (Node × Node))
  | 0 => failure
  | fuel + 1 => do
      let stops := [.key, .value, .blockEnd]
      if ← accept .key then
        let key ← nodeUnless fuel .blocksOrItems stops
        let value ← if ← accept .value then nodeUnless fuel .blocksOrItems stops else pure Node.blank
        return (key, value) :: (← blockFields fuel)
      else if ← accept .value then
        let value ← nodeUnless fuel .blocksOrItems stops
        return (Node.blank, value) :: (← blockFields fuel)
      else
        expect .blockEnd
        return []

/-- The items of a list in brackets; a pair alone is a record of one field. -/
def inlineItems : Nat → Bool → Build (List Node)
  | 0, _ => failure
  | fuel + 1, first => do
      if ← accept .closeList then return []
      else
        if !first then expect .comma
        if ← accept .closeList then return []
        else if ← accept .key then
          let key ← nodeUnless fuel .brackets [.value, .comma, .closeList]
          let value ←
            if ← accept .value then nodeUnless fuel .brackets [.comma, .closeList]
            else pure Node.blank
          return .record none [(key, value)] :: (← inlineItems fuel false)
        else
          let item ← node fuel .brackets
          return item :: (← inlineItems fuel false)

/-- The fields of a record in braces; a node alone is a key without a value. -/
def inlineFields : Nat → Bool → Build (List (Node × Node))
  | 0, _ => failure
  | fuel + 1, first => do
      if ← accept .closeRecord then return []
      else
        if !first then expect .comma
        if ← accept .closeRecord then return []
        else if ← accept .key then
          let key ← nodeUnless fuel .brackets [.value, .comma, .closeRecord]
          let value ←
            if ← accept .value then nodeUnless fuel .brackets [.comma, .closeRecord]
            else pure Node.blank
          return (key, value) :: (← inlineFields fuel false)
        else
          let key ← node fuel .brackets
          return (key, Node.blank) :: (← inlineFields fuel false)

end

/-! ### Documents -/

/-- Past tokens of one sort. -/
def skipAll (t : Token) : Nat → Build Unit
  | 0 => return
  | fuel + 1 => do
      if ← accept t then skipAll t fuel else return

/-- The document of a stream, which must hold no other one. -/
def onlyDocument (fuel : Nat) : Build (Option Node) := do
  let marks := [Token.directive, .documentStart, .documentEnd]
  if (← get).tokens.isEmpty then return none
  else
    let explicit ← nextIn marks
    if explicit then
      skipAll .documentEnd fuel
      skipAll .directive fuel
      if (← get).tokens.isEmpty then return none
      expect .documentStart
    let blank ← if explicit then nextIn marks else pure false
    let n ←
      if blank || (← get).tokens.isEmpty then pure Node.blank else node fuel .blocks
    skipAll .documentEnd fuel
    if (← get).tokens.isEmpty then return some n else failure

/-- The node of a text, or `some none` for a text without one. -/
def document? (cs : List Char) : Option (Option Node) :=
  (tokens? cs).bind fun ts =>
    ((onlyDocument (8 * ts.length + 16)).run ⟨ts, []⟩).map (·.1)

end Yaml

end SketchHost
