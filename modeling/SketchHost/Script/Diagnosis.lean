/-
**Diagnosis.**

Where a source that is no program goes wrong.  A repair either supplies one token or leaves out a
stretch of text; the diagnosis is that of the cheapest repair after which the rest of the source
reads.

* `Script.strayToken?` — a token with which no statement begins;
* `Script.strayInside?` — such a token inside a statement that reads without it;
* `Script.unclosedBlock?` — a closing brace that is missing at the end;
* `Script.missingSemicolon?` — a semicolon that is missing between two statements on a line;
* `Script.leftOut?` — the shortest beginning of a statement after which the rest reads;
* `Script.diagnose` — the fault of a source;
* `Script.parse` — the syntax tree of a source, or its fault.
-/

import SketchHost.Script.Fault
import SketchHost.Script.Parse

set_option relaxedAutoImplicit false
set_option autoImplicit false

namespace SketchHost

namespace Script

/-! ### Tokens -/

/-- The place after the next token, comments apart; templates count as a quote and what follows. -/
def Cursor.afterToken (c : Cursor) : Cursor :=
  match c.word? with
  | some (_, after) => after
  | none =>
      match c.string? <|> c.number? with
      | some after => after
      | none => c.skip (max 1 c.mark.length)

/-- The text between two places. -/
def Cursor.textTo (c d : Cursor) : String :=
  String.ofList (c.rest.take (c.rest.length - d.rest.length))

/-- The ends of the tokens and comments from a place on, the last one first. -/
def elementEnds : Nat → Cursor → List Cursor → List Cursor
  | 0, _, ends => ends
  | fuel + 1, c, ends =>
      match c.afterComment? with
      | some after => elementEnds fuel after (after :: ends)
      | none =>
          let d := c.skipTrivia
          if d.rest.isEmpty then ends
          else elementEnds fuel d.afterToken (d.afterToken :: ends)

/-- The end of the last token or comment from a place on. -/
def lastEnd (c : Cursor) : Cursor :=
  ((elementEnds (c.rest.length + 1) c []).head?).getD c

/-! ### Reading on -/

/-- Whether the source reads as statements from a place on. -/
def readsFrom (g : Parts) (c : Cursor) : Bool :=
  match (statementsToEnd g g.bound).run c with
  | some (body, _) => body.all Node.isFinished
  | none => false

/-- The first place from which no statement reads, with what comes before it being statements. -/
def firstStuck (g : Parts) : Nat → Cursor → Cursor
  | 0, c => c
  | fuel + 1, c =>
      match (g.read .statement).run c with
      | some (s, after) => if s.isFinished then firstStuck g fuel after else c.skipTrivia
      | none => c.skipTrivia

/-! ### Repairs -/

/-- The words with which no statement begins. -/
def clauseWords : List String :=
  ["else", "case", "catch", "finally", "default", "in", "instanceof", "extends"]

/-- The token at a place, if it is one with which no statement begins. -/
def strayToken? (c : Cursor) : Option Cursor :=
  match c.word? with
  | some (w, after) => if clauseWords.contains w then some after else none
  | none => if [")", "]", "\x7d"].contains c.mark then some (c.skip 1) else none

/-- The signs with which a statement begins. -/
def openingSigns : List String :=
  ["(", "[", "\x7b", ";", "+", "-", "++", "--", "!", "~", "/", "\x60"]

/-- Whether a token is one with which a statement begins. -/
def opensStatement (c : Cursor) : Bool :=
  match c.word? with
  | some (w, _) => !clauseWords.contains w
  | none => (c.string?).isSome || (c.number?).isSome || openingSigns.contains c.mark

/-- The end of a stray token and of the tokens after it with which no statement begins. -/
def strayEnd : Nat → Cursor → Cursor
  | 0, c => c
  | fuel + 1, c =>
      let next := c.skipTrivia
      if next.rest.isEmpty || opensStatement next then c else strayEnd fuel next.afterToken

/-- The tokens from a place on, each with its end and the end of the one before it. -/
def tokens : Nat → Cursor → List (Cursor × Cursor × Cursor)
  | 0, _ => []
  | fuel + 1, c =>
      let d := c.skipTrivia
      if d.rest.isEmpty then [] else (c, d, d.afterToken) :: tokens fuel d.afterToken

/-- Whether the source reads without the token from `d` to `after` inside a statement.  What comes next
has to follow on what came before; a brace that closes a block follows on a finished statement only.
Of several equal tokens in a row the last one is the stray one. -/
def readsWithout (c : Cursor) (before d after : Cursor) : Bool :=
  let next := after.skipTrivia
  let kept := c.rest.take (c.rest.length - before.rest.length)
  let joined := kept ++ ' ' :: next.rest
  let follows := next.mark != "\x7d" || kept.getLast?.any [';', '\x7b', '\x7d'].contains
  !next.rest.isEmpty && next.textTo next.afterToken != d.textTo after && follows
    && readsFrom (partsOf joined) ⟨joined, c.offset⟩

/-- The last token of the statement at a place that is stray where it stands, and its end. -/
def strayInside? (c : Cursor) : Option (Cursor × Cursor) :=
  ((tokens (c.rest.length + 1) c).reverse.find? fun (before, d, after) =>
    (strayToken? d).isSome && readsWithout c before d after).map (·.2)

/-- What it costs to supply a token. -/
def supplyCost : Nat := 110

/-- What it costs to leave out one phrase between two places. -/
def leaveOutCost (c d : Cursor) : Nat :=
  100 + (d.offset - c.offset)

/-- The place of a closing brace after which the statement at a place, and the source with it, would
end.  A brace that has nothing after it is better left out. -/
def unclosedBlock? (c : Cursor) : Option Cursor :=
  let ending := lastEnd c
  let lone := c.mark == "\x7b" && (c.skip 1).skipTrivia.rest.isEmpty
  let closed := c.rest.take (c.rest.length - ending.rest.length) ++ ['\n', '\x7d']
  if lone && leaveOutCost c ending < supplyCost then none
  else if readsFrom (partsOf closed) ⟨closed, c.offset⟩ then some ending
  else none

/-- The place at the end of a token of the statement at a place where a semicolon would let the
source read. -/
def missingSemicolon? (c : Cursor) : Option Cursor :=
  (elementEnds (c.rest.length + 1) c []).reverse.find? fun d =>
    !d.rest.isEmpty && d.skipTrivia.rest.length < c.rest.length &&
      let supplied := c.rest.take (c.rest.length - d.rest.length) ++ ';' :: d.rest
      readsFrom (partsOf supplied) ⟨supplied, c.offset⟩

/-- The end of the expressions at a place. -/
def phraseEnd? (g : Parts) (c : Cursor) : Option Cursor :=
  ((expressions g).run c).map (·.2)

/-- Whether a token begins a name. -/
def beginsName (c : Cursor) : Bool :=
  match c.word? with
  | some (w, _) => !reservedWords.contains w
  | none => false

/-- Whether the source goes on at a place.  After a first word that waits for the name or the body of a
class, a token does that would begin another statement; in any other case the rest has to read. -/
def goesOn (g : Parts) (awaitsClass : Bool) (c : Cursor) : Bool :=
  if awaitsClass then opensStatement c && !beginsName c && c.mark != "\x7b"
  else (strayToken? c).isNone && readsFrom g c

/-- The first token after a place at which the source goes on, and the end of the one before it. -/
def leftOut? (g : Parts) (awaitsClass : Bool) : Nat → Cursor → Option Cursor
  | 0, _ => none
  | fuel + 1, c =>
      let after := c.afterToken
      let next := after.skipTrivia
      if next.rest.isEmpty then none
      else if goesOn g awaitsClass next then some after
      else leftOut? g awaitsClass fuel next

/-! ### Diagnosis -/

/-- The complaint about a source whose statement at `c` does not read, and its place. -/
def complaintAt (g : Parts) (c : Cursor) : Complaint × Cursor :=
  let ending := lastEnd c
  match strayToken? c with
  | some after => (.unexpected (c.textTo (strayEnd g.bound after)), c)
  | none =>
    match strayInside? c with
    | some (place, after) => (.unexpected (place.textTo after), place)
    | none =>
      match unclosedBlock? c with
      | some place => (.missing "\x7d", place)
      | none =>
          let phrase := (phraseEnd? g c).filter fun d =>
            leaveOutCost c d < supplyCost && !d.skipTrivia.rest.isEmpty && readsFrom g d
          match phrase with
          | some d => (.unexpected (c.textTo d), c)
          | none =>
              match missingSemicolon? c with
              | some place => (.missing ";", place)
              | none =>
                  let awaitsClass := (c.word?.map (·.1)) == some "class"
                  let stop := (leftOut? g awaitsClass g.bound c).getD ending
                  (.unexpected (c.textTo stop), c)

/-- The fault of a source that is no program. -/
def diagnose (source : List Char) : Fault :=
  let g := partsOf source
  let (complaint, place) :=
    complaintAt g (firstStuck g g.bound (skipInterpreterLine (Cursor.start source)))
  ⟨complaint, .ofOffset source place.offset⟩

/-- The syntax tree of a source, or its fault. -/
def parse (source : String) : Except Fault Node :=
  match parse? source.toList with
  | some root => .ok root
  | none => .error (diagnose source.toList)

/-- A source has a syntax tree exactly if it is read. -/
@[simp] theorem parse_eq_ok_iff {source : String} {root : Node} :
    parse source = .ok root ↔ parse? source.toList = some root := by
  unfold parse
  split <;> simp_all

end Script

end SketchHost
