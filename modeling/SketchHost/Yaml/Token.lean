/-
**Tokens of YAML.**

Indentation opens and closes blocks, and a word is a key only once the colon after it is seen.  The
tokens make both explicit.

* `Yaml.Token` — a token;
* `Yaml.Scanner` — the tokens found so far, the open blocks, and the words that may turn out to be keys;
* `Yaml.Scanner.fetch?` — one more token;
* `Yaml.tokens?` — the tokens of a text.
-/

import SketchHost.Yaml.Scalar

set_option relaxedAutoImplicit false
set_option autoImplicit false

namespace SketchHost

namespace Yaml

/-- A token of YAML. -/
inductive Token where
  | documentStart | documentEnd | directive
  | listBlock | recordBlock | blockEnd
  | openList | closeList | openRecord | closeRecord
  | entry | comma | key | value
  | alias (name : String)
  | anchor (name : String)
  | tag (name : String)
  | scalar (text : List Char) (plain : Bool)
deriving DecidableEq, Repr, Inhabited

/-- A word that may turn out to be a key: the number of tokens before it, whether it has to be one,
and where it stands. -/
structure Candidate where
  count : Nat
  required : Bool
  place : Place

/-- The state of a scan.  `indents` holds the columns of the open blocks, the innermost first, and
`candidates` at most one word for each depth of brackets, the innermost first. -/
structure Scanner where
  place : Place
  tokens : Array Token
  depth : Nat
  indents : List Nat
  keyAllowed : Bool
  candidates : List (Nat × Candidate)

namespace Scanner

/-- The state before a text. -/
def start (cs : List Char) : Scanner :=
  ⟨Place.start cs, #[], 0, [], true, []⟩

/-- The column of the innermost open block, if there is one. -/
def indent? (s : Scanner) : Option Nat := s.indents.head?

/-- The least column of the lines that belong to the innermost open block. -/
def inner (s : Scanner) : Nat := (s.indent?.map (· + 1)).getD 0

/-- The state with one token more, at a later place. -/
def emit (s : Scanner) (t : Token) (after : Place) : Scanner :=
  { s with tokens := s.tokens.push t, place := after }

/-! ### Blocks -/

/-- Opens a block at a column, unless one is open there; the token goes to a position. -/
def openBlock (s : Scanner) (t : Token) (column position : Nat) : Scanner :=
  if s.indent?.all (· < column) then
    { s with indents := column :: s.indents, tokens := s.tokens.insertIdx! position t }
  else s

/-- Closes the blocks that begin right of a column; all blocks if there is none. -/
def closeBlocks (column? : Option Nat) : List Nat → List Nat × Nat
  | [] => ([], 0)
  | c :: rest =>
      if column?.all (· < c) then
        let (open_, n) := closeBlocks column? rest
        (open_, n + 1)
      else (c :: rest, 0)

/-- Closes blocks, which has no effect inside brackets. -/
def unwind (s : Scanner) (column? : Option Nat) : Scanner :=
  if s.depth != 0 then s
  else
    let (open_, n) := closeBlocks column? s.indents
    { s with indents := open_, tokens := s.tokens ++ Array.replicate n .blockEnd }

/-! ### Keys -/

/-- Forgets the candidate of the present depth; one that has to be a key must not be forgotten. -/
def dropCandidate? (s : Scanner) : Option Scanner :=
  match s.candidates with
  | (d, c) :: rest =>
      if d == s.depth then if c.required then none else some { s with candidates := rest } else some s
  | [] => some s

/-- Takes the word that comes next for a candidate, where a key may stand. -/
def saveCandidate? (s : Scanner) : Option Scanner :=
  if s.keyAllowed then
    s.dropCandidate?.map fun s =>
      let required := s.depth == 0 && s.indent? == some s.place.column
      { s with candidates := (s.depth, ⟨s.tokens.size, required, s.place⟩) :: s.candidates }
  else some s

/-- The greatest number of characters of a key. -/
def maxKeyLength : Nat := 1024

/-- Forgets the candidates that are on another line or too long. -/
def dropStale? (s : Scanner) : Option Scanner :=
  let stale (c : Candidate) :=
    c.place.line != s.place.line || s.place.index - c.place.index > maxKeyLength
  if s.candidates.any fun (_, c) => stale c && c.required then none
  else some { s with candidates := s.candidates.filter fun (_, c) => !stale c }

/-! ### Tokens of one sort -/

/-- A mark at the start of a line: it closes all blocks. -/
def fetchMark? (t : Token) (after : Place) (s : Scanner) : Option Scanner :=
  (s.unwind none).dropCandidate?.map fun s => { s.emit t after with keyAllowed := false }

/-- An opening bracket. -/
def fetchOpen? (t : Token) (s : Scanner) : Option Scanner :=
  s.saveCandidate?.map fun s =>
    { s.emit t s.place.step with depth := s.depth + 1, keyAllowed := true }

/-- A closing bracket. -/
def fetchClose? (t : Token) (s : Scanner) : Option Scanner :=
  if s.depth == 0 then none
  else
    s.dropCandidate?.map fun s =>
      { s.emit t s.place.step with depth := s.depth - 1, keyAllowed := false }

/-- A comma between brackets. -/
def fetchComma? (s : Scanner) : Option Scanner :=
  s.dropCandidate?.map fun s => { s.emit .comma s.place.step with keyAllowed := true }

/-- The dash of an item. -/
def fetchEntry? (s : Scanner) : Option Scanner :=
  if s.depth != 0 then some (s.emit .entry s.place.step)
  else if !s.keyAllowed then none
  else
    (s.openBlock .listBlock s.place.column s.tokens.size).dropCandidate?.map fun s =>
      { s.emit .entry s.place.step with keyAllowed := true }

/-- The question mark of a key. -/
def fetchKey? (s : Scanner) : Option Scanner :=
  if s.depth == 0 && !s.keyAllowed then none
  else
    let s := if s.depth == 0 then s.openBlock .recordBlock s.place.column s.tokens.size else s
    s.dropCandidate?.map fun s =>
      { s.emit .key s.place.step with keyAllowed := s.depth == 0 }

/-- The colon of a value: it turns the candidate of its depth into a key. -/
def fetchValue? (s : Scanner) : Option Scanner :=
  match s.candidates with
  | (d, c) :: rest =>
      if d == s.depth then
        let s := { s with candidates := rest, tokens := s.tokens.insertIdx! c.count .key }
        let s := if s.depth == 0 then s.openBlock .recordBlock c.place.column c.count else s
        some { s.emit .value s.place.step with keyAllowed := false }
      else valueAlone? s
  | [] => valueAlone? s
where
  /-- The colon of a value without a key before it on the line. -/
  valueAlone? (s : Scanner) : Option Scanner :=
    if s.depth == 0 && !s.keyAllowed then none
    else
      let s := if s.depth == 0 then s.openBlock .recordBlock s.place.column s.tokens.size else s
      s.dropCandidate?.map fun s =>
        { s.emit .value s.place.step with keyAllowed := s.depth == 0 }

/-- A character of the name of an anchor. -/
def isNameChar (c : Char) : Bool :=
  c.isAlphanum || c == '-' || c == '_'

/-- The name of an anchor or an alias, after its sign. -/
def fetchName? (make : String → Token) (s : Scanner) : Option Scanner :=
  s.saveCandidate?.bind fun s =>
    let name := s.place.step.rest.takeWhile isNameChar
    let after := s.place.forward (name.length + 1)
    let ended := isGap after.next? || after.next?.any "?:,]\x7d%@\x60".toList.contains
    if name.isEmpty || !ended then none
    else some { s.emit (make (String.ofList name)) after with keyAllowed := false }

/-- A tag: everything up to the next gap. -/
def fetchTag? (s : Scanner) : Option Scanner :=
  s.saveCandidate?.map fun s =>
    let ends (c : Char) := isGap (some c) || (s.depth != 0 && ",]\x7d".toList.contains c)
    let name := s.place.rest.takeWhile fun c => !ends c
    { s.emit (.tag (String.ofList name)) (s.place.forward name.length) with keyAllowed := false }

/-- A block of lines. -/
def fetchBlock? (fold : Bool) (s : Scanner) : Option Scanner :=
  s.dropCandidate?.bind fun s =>
    (blockText? fold s.inner s.place.step).map fun (text, after) =>
      { s.emit (.scalar text false) after with keyAllowed := true }

/-- A quoted scalar. -/
def fetchQuoted? (double : Bool) (s : Scanner) : Option Scanner :=
  s.saveCandidate?.bind fun s =>
    (quotedText? double (s.place.rest.length + 1) s.place.step).map fun (text, after) =>
      { s.emit (.scalar text false) after with keyAllowed := false }

/-- Whether a plain scalar comes next. -/
def atPlain (s : Scanner) : Bool :=
  match s.place.next? with
  | none => false
  | some c =>
      let closed := isGap (s.place.at? 1)
      (!isGap (some c) && !"-?:,[]\x7b\x7d#&*!|>\x27\x22%@\x60".toList.contains c)
        || (!closed && (c == '-' || (s.depth == 0 && (c == '?' || c == ':'))))

/-- A plain scalar. -/
def fetchPlain? (s : Scanner) : Option Scanner :=
  s.saveCandidate?.map fun s =>
    let r := plainText (s.depth != 0) s.inner (s.place.rest.length + 1) s.place
    { s.emit (.scalar r.text true) r.after with keyAllowed := r.crossed }

/-! ### Scan -/

/-- The token that begins with a character. -/
def dispatch? (s : Scanner) (c : Char) : Option Scanner :=
  let p := s.place
  let closed := isGap (p.at? 1)
  if c == '%' && p.column == 0 then s.fetchMark? .directive p.skipLine
  else if p.column == 0 && p.atDocumentMark then
    s.fetchMark? (if c == '-' then .documentStart else .documentEnd) (p.forward 3)
  else if c == '[' then s.fetchOpen? .openList
  else if c == '\x7b' then s.fetchOpen? .openRecord
  else if c == ']' then s.fetchClose? .closeList
  else if c == '\x7d' then s.fetchClose? .closeRecord
  else if c == ',' then s.fetchComma?
  else if c == '-' && closed then s.fetchEntry?
  else if c == '?' && (closed || s.depth != 0) then s.fetchKey?
  else if c == ':' && (closed || s.depth != 0) then s.fetchValue?
  else if c == '*' then s.fetchName? .alias
  else if c == '&' then s.fetchName? .anchor
  else if c == '!' then s.fetchTag?
  else if c == '|' && s.depth == 0 then s.fetchBlock? false
  else if c == '>' && s.depth == 0 then s.fetchBlock? true
  else if c == '\x27' then s.fetchQuoted? false
  else if c == '\x22' then s.fetchQuoted? true
  else if s.atPlain then s.fetchPlain?
  else none

/-- One more token; at the end of the text all blocks are closed. -/
def fetch? (s : Scanner) : Option Scanner := do
  let (p, crossed) := s.place.skipToToken (s.place.rest.length + 1)
  let s := { s with place := p, keyAllowed := s.keyAllowed || (crossed && s.depth == 0) }
  let s ← s.dropStale?
  let s := s.unwind (some p.column)
  match p.next? with
  | none => (s.unwind none).dropCandidate?
  | some c => s.dispatch? c

/-- All tokens up to the end of the text. -/
def run? : Nat → Scanner → Option (Array Token)
  | 0, _ => none
  | fuel + 1, s =>
      match s.fetch? with
      | none => none
      | some after => if after.place.rest.isEmpty then finish? after else run? fuel after
where
  /-- The tokens once the end of the text is reached. -/
  finish? (s : Scanner) : Option (Array Token) :=
    s.fetch?.map Scanner.tokens

end Scanner

/-- The tokens of a text. -/
def tokens? (cs : List Char) : Option (List Token) :=
  if cs.all isAllowed then
    let body := match cs with
      | '\ufeff' :: rest => rest
      | _ => cs
    (Scanner.run? (body.length + 2) (Scanner.start body)).map Array.toList
  else none

end Yaml

end SketchHost
