/-
**The texts of scalars in YAML.**

A scalar is plain, quoted, or a block of lines.  Its text is read with line breaks folded as its
style demands.

* `Yaml.plainText` — the text of a plain scalar;
* `Yaml.quotedText?` — the text of a quoted scalar;
* `Yaml.blockText?` — the text of a block of lines.
-/

import SketchHost.Json.Literal
import SketchHost.Yaml.Place

set_option relaxedAutoImplicit false
set_option autoImplicit false

namespace SketchHost

namespace Yaml

/-- A text and the place after it; `crossed` tells whether a line break lies before that place. -/
structure Reading where
  text : List Char
  after : Place
  crossed : Bool
deriving Inhabited

/-! ### Line breaks -/

/-- The line breaks and spaces that come next: the breaks, and the place after them; `none` in the
second part if a mark between documents follows. -/
def breaksAhead : Nat → Place → List Char × Option Place
  | 0, p => ([], some p)
  | fuel + 1, p =>
      if p.atDocumentMark && p.column == 0 then ([], none)
      else
        let q := p.skipSpaces
        match q.takeBreak? with
        | some (b, after) =>
            let (bs, last) := breaksAhead fuel after
            (b :: bs, last)
        | none => ([], some q)

/-- What a line break and the breaks after it become: one break is a space, and of several the first
is left out, unless it is one of the breaks that are kept. -/
def folded (first : Char) (more : List Char) : List Char :=
  if first != '\n' then first :: more
  else if more.isEmpty then [' '] else more

/-! ### Plain scalars -/

/-- Whether a plain scalar ends before the text. -/
def endsPlain (inFlow : Bool) : List Char → Bool
  | [] => true
  | c :: rest =>
      isGap (some c)
        || (c == ':' && (isGap rest.head? || (inFlow && rest.head?.any ",[]\x7b\x7d".toList.contains)))
        || (inFlow && ",?[]\x7b\x7d".toList.contains c)

/-- The run of characters that belong to a plain scalar without a space. -/
def plainRun (inFlow : Bool) : List Char → List Char
  | [] => []
  | c :: rest => if endsPlain inFlow (c :: rest) then [] else c :: plainRun inFlow rest

/-- What stands between two runs of a plain scalar; an empty text ends the scalar. -/
def plainGap (p : Place) : Reading :=
  let q := p.skipSpaces
  match q.takeBreak? with
  | some (b, after) =>
      match breaksAhead (after.rest.length + 1) after with
      | (bs, some last) => ⟨folded b bs, last, true⟩
      | (_, none) => ⟨[], after, true⟩
  | none => ⟨p.rest.take (q.index - p.index), q, false⟩

/-- The text of a plain scalar, which goes on over lines that are indented by `indent` columns. -/
def plainText (inFlow : Bool) (indent : Nat) : Nat → Place → Reading
  | 0, p => ⟨[], p, false⟩
  | fuel + 1, p =>
      if p.next? == some '#' then ⟨[], p, false⟩
      else
        let run := plainRun inFlow p.rest
        if run.isEmpty then ⟨[], p, false⟩
        else
          let gap := plainGap (p.forward run.length)
          let ended := gap.text.isEmpty || gap.after.next? == some '#'
            || (!inFlow && gap.after.column < indent)
          if ended then ⟨run, gap.after, gap.crossed⟩
          else
            let more := plainText inFlow indent fuel gap.after
            if more.text.isEmpty then ⟨run, gap.after, gap.crossed⟩
            else ⟨run ++ gap.text ++ more.text, more.after, more.crossed⟩

/-! ### Quoted scalars -/

/-- The character that an escape of one letter stands for. -/
def escapeOf? (c : Char) : Option Char :=
  match c with
  | '0' => some '\x00'
  | 'a' => some '\x07'
  | 'b' => some '\x08'
  | 't' => some '\t'
  | '\t' => some '\t'
  | 'n' => some '\n'
  | 'v' => some '\x0b'
  | 'f' => some '\x0c'
  | 'r' => some '\r'
  | 'e' => some '\x1b'
  | ' ' => some ' '
  | '\x22' => some '\x22'
  | '\\' => some '\\'
  | '/' => some '/'
  | 'N' => some '\u0085'
  | '_' => some '\u00a0'
  | 'L' => some '\u2028'
  | 'P' => some '\u2029'
  | _ => none

/-- The number of hexadecimal digits of an escape by code point. -/
def escapeWidth? (c : Char) : Option Nat :=
  match c with
  | 'x' => some 2
  | 'u' => some 4
  | 'U' => some 8
  | _ => none

/-- The number that hexadecimal digits denote, if there are as many as `width`. -/
def hexNumber? (width : Nat) (cs : List Char) : Option Nat :=
  if cs.length < width then none
  else (cs.take width).foldlM (fun n c => (Json.hexValue? c).map (16 * n + ·)) 0

/-- Past spaces and tabs. -/
def skipBlanks (p : Place) : Place :=
  p.skipWhile fun c => c == ' ' || c == '\t'

/-- The line breaks inside a quoted scalar, blanks at the start of a line apart; a mark between
documents must not stand there. -/
def quotedBreaks? : Nat → Place → Option (List Char × Place)
  | 0, _ => none
  | fuel + 1, p =>
      if p.atDocumentMark && p.column == 0 then none
      else
        let q := skipBlanks p
        match q.takeBreak? with
        | some (b, after) => (quotedBreaks? fuel after).map fun (bs, last) => (b :: bs, last)
        | none => some ([], q)

/-- The text of a quoted scalar whose opening quote was read. -/
def quotedText? (double : Bool) : Nat → Place → Option (List Char × Place)
  | 0, _ => none
  | fuel + 1, p =>
      let before (text : List Char) (r : Option (List Char × Place)) :=
        r.map fun (more, after) => (text ++ more, after)
      match p.rest with
      | [] => none
      | c :: rest =>
          if !double && c == '\x27' then
            if rest.head? == some '\x27' then before ['\x27'] (quotedText? double fuel (p.forward 2))
            else some ([], p.step)
          else if double && c == '\x22' then some ([], p.step)
          else if double && c == '\\' then
            let q := p.step
            match q.takeBreak?, rest with
            | some (_, after), _ =>
                match quotedBreaks? (after.rest.length + 1) after with
                | some (bs, last) => before bs (quotedText? double fuel last)
                | none => none
            | none, e :: digits =>
                match escapeOf? e, escapeWidth? e with
                | some x, _ => before [x] (quotedText? double fuel (p.forward 2))
                | none, some width =>
                    match hexNumber? width digits with
                    | some n =>
                        if n.isValidChar then
                          before [Char.ofNat n] (quotedText? double fuel (p.forward (2 + width)))
                        else none
                    | none => none
                | none, none => none
            | none, [] => none
          else if isGap (some c) then
            let q := skipBlanks p
            match q.takeBreak? with
            | some (b, after) =>
                match quotedBreaks? (after.rest.length + 1) after with
                | some (bs, last) => before (folded b bs) (quotedText? double fuel last)
                | none => none
            | none => before (p.rest.take (q.index - p.index)) (quotedText? double fuel q)
          else before [c] (quotedText? double fuel p.step)

/-! ### Blocks of lines -/

/-- What becomes of the line breaks at the end of a block. -/
inductive Chomp where
  | strip
  | clip
  | keep
deriving DecidableEq, Repr

/-- The head of a block: what becomes of its end, and its indentation if it is given. -/
structure BlockHead where
  chomp : Chomp
  indent? : Option Nat
  after : Place

/-- The sign for the end of a block. -/
def chompOf? (c : Option Char) : Option Chomp :=
  if c == some '+' then some .keep else if c == some '-' then some .strip else none

/-- The digit for the indentation of a block. -/
def indentOf? (c : Option Char) : Option Nat :=
  c.bind fun d => if '1' ≤ d && d ≤ '9' then some (d.toNat - 0x30) else none

/-- The signs after the mark of a block, in either order. -/
def blockSigns (p : Place) : BlockHead :=
  match chompOf? p.next? with
  | some chomp =>
      match indentOf? (p.at? 1) with
      | some n => ⟨chomp, some n, p.forward 2⟩
      | none => ⟨chomp, none, p.step⟩
  | none =>
      match indentOf? p.next? with
      | some n =>
          match chompOf? (p.at? 1) with
          | some chomp => ⟨chomp, some n, p.forward 2⟩
          | none => ⟨.clip, some n, p.step⟩
      | none => ⟨.clip, none, p⟩

/-- The head of a block after its mark, up to the end of its line. -/
def blockHead? (p : Place) : Option BlockHead :=
  let head := blockSigns p
  let ending := head.after.skipComment
  match ending.takeBreak?, ending.rest with
  | some (_, after), _ => some { head with after := after }
  | none, [] => some { head with after := ending }
  | none, _ => none

/-- Past at most as many spaces as bring the place to a column. -/
def skipIndent (indent : Nat) (p : Place) : Place :=
  p.forward (min (indent - p.column) (p.rest.takeWhile (· == ' ')).length)

/-- The empty lines before a line of a block. -/
def emptyLines (indent : Nat) : Nat → Place → List Char × Place
  | 0, p => ([], p)
  | fuel + 1, p =>
      let q := skipIndent indent p
      match q.takeBreak? with
      | some (b, after) =>
          let (bs, last) := emptyLines indent fuel after
          (b :: bs, last)
      | none => ([], q)

/-- The empty lines before the first line of a block, and the greatest number of leading spaces. -/
def leadingLines : Nat → Place → List Char × Nat × Place
  | 0, p => ([], 0, p)
  | fuel + 1, p =>
      let q := p.skipSpaces
      match q.takeBreak? with
      | some (b, after) =>
          let (bs, width, last) := leadingLines fuel after
          (b :: bs, max q.column width, last)
      | none => ([], q.column, q)

/-- The end of a block. -/
def chomped (chomp : Chomp) (last : List Char) (breaks : List Char) : List Char :=
  match chomp with
  | .strip => []
  | .clip => last
  | .keep => last ++ breaks

/-- The lines of a block, after the breaks before the line at the place. -/
def blockLines (fold : Bool) (chomp : Chomp) (indent : Nat) :
    Nat → List Char → Place → List Char × Place
  | 0, breaks, p => (breaks, p)
  | fuel + 1, breaks, p =>
      let isText (q : Place) := q.column == indent && !q.rest.isEmpty
      if !isText p then (chomped chomp [] breaks, p)
      else
        let line := p.rest.takeWhile fun c => !isBreak c
        let ending := p.forward line.length
        match ending.takeBreak? with
        | none => (breaks ++ line ++ chomped chomp [] [], ending)
        | some (b, after) =>
            let (more, next) := emptyLines indent (after.rest.length + 1) after
            if isText next then
              let startsBlank (q : Place) := q.next?.any fun c => c == ' ' || c == '\t'
              let between :=
                if fold && b == '\n' && !startsBlank p && !startsBlank next then
                  if more.isEmpty then [' '] else []
                else [b]
              let (text, last) := blockLines fold chomp indent fuel more next
              (breaks ++ line ++ between ++ text, last)
            else (breaks ++ line ++ chomped chomp [b] more, next)

/-- The text of a block whose mark was read, inside a part that is indented by `outer` columns. -/
def blockText? (fold : Bool) (outer : Nat) (p : Place) : Option (List Char × Place) :=
  (blockHead? p).map fun head =>
    let least := max outer 1
    let fuel := head.after.rest.length + 1
    match head.indent? with
    | some n =>
        let indent := least + n - 1
        let (breaks, q) := emptyLines indent fuel head.after
        blockLines fold head.chomp indent fuel breaks q
    | none =>
        let (breaks, width, q) := leadingLines fuel head.after
        blockLines fold head.chomp (max least width) fuel breaks q

end Yaml

end SketchHost
