/-
**The lexical grammar of sketches.**

A cursor stands between two characters of a source and knows how many bytes lie before it.  The
readers of this module move a cursor over one lexical element each; they look only at the text, and
the phrase grammar decides which of them applies where a slash or a line break is ambiguous.

* `Script.Cursor` — a place in a source;
* `Script.isSpace`, `Script.isWordStart`, `Script.isWordPart` — the character classes;
* `Script.Cursor.skipTrivia` — what lies between two tokens: spaces and comments;
* `Script.Cursor.word?`, `number?`, `string?`, `regex?`, `mark` — the tokens;
* `Script.endsStatement` — where a semicolon is understood that is not written.
-/

import SketchHost.Text.Blank
import SketchHost.Text.Digit
import SketchHost.Text.Word

set_option relaxedAutoImplicit false
set_option autoImplicit false

namespace SketchHost

namespace Script

/-! ### Cursors -/

/-- A place in a source: the characters that follow, and the number of bytes before it. -/
structure Cursor where
  rest : List Char
  offset : Nat
deriving DecidableEq, Repr, Inhabited

namespace Cursor

/-- The start of a source. -/
def start (cs : List Char) : Cursor := ⟨cs, 0⟩

/-- Past the next `n` characters. -/
def skip : Nat → Cursor → Cursor
  | 0, c => c
  | _ + 1, ⟨[], k⟩ => ⟨[], k⟩
  | n + 1, ⟨x :: xs, k⟩ => skip n ⟨xs, k + x.utf8Size⟩

@[simp] theorem skip_zero (c : Cursor) : skip 0 c = c := rfl

/-- The longest run of characters with a property, and the place after it. -/
def takeWhile (p : Char → Bool) (c : Cursor) : List Char × Cursor :=
  let run := c.rest.takeWhile p
  (run, c.skip run.length)

end Cursor

/-! ### Character classes -/

/-- A character that separates tokens: white space, and the three characters without width. -/
def isSpace (c : Char) : Bool :=
  Text.isWhite c || c == '\ufeff' || c == '\u200b' || c == '\u2060'

/-- A character that ends a line comment. -/
def isTerminator (c : Char) : Bool :=
  c == '\n' || c == '\r' || c == '\u2028' || c == '\u2029'

/-- The ASCII characters that have a meaning of their own and so belong to no word. -/
def isReservedMark (c : Char) : Bool :=
  c.toNat < 0x20 || ":;\x60\x22\x27@#.,|^&<=>+-*/\\%?!~()[]\x7b\x7d".toList.contains c

/-- A character that may stand inside a word; every character that has no other meaning may. -/
def isWordPart (c : Char) : Bool :=
  !isReservedMark c && !isSpace c

/-- A character that may begin a word. -/
def isWordStart (c : Char) : Bool :=
  isWordPart c && !Text.isAsciiDigit c

/-- A hexadecimal digit. -/
def isHexDigit (c : Char) : Bool :=
  Text.isAsciiDigit c || ('a' ≤ c && c ≤ 'f') || ('A' ≤ c && c ≤ 'F')

/-! ### Spaces and comments -/

/-- Inside what a skip over spaces and comments is. -/
inductive Trivia where
  | spaces
  | line
  | block (opening : Cursor)

/-- Past spaces and comments.  A block comment that is not closed is none, and the cursor stays
before it. -/
def skipFrom : Trivia → List Char → Nat → Cursor
  | .spaces, '/' :: '/' :: rest, k => skipFrom .line rest (k + 2)
  | .spaces, '/' :: '*' :: rest, k => skipFrom (.block ⟨'/' :: '*' :: rest, k⟩) rest (k + 2)
  | .spaces, c :: rest, k =>
      if isSpace c then skipFrom .spaces rest (k + c.utf8Size) else ⟨c :: rest, k⟩
  | .line, c :: rest, k =>
      skipFrom (if isTerminator c then .spaces else .line) rest (k + c.utf8Size)
  | .block _, '*' :: '/' :: rest, k => skipFrom .spaces rest (k + 2)
  | .block opening, c :: rest, k => skipFrom (.block opening) rest (k + c.utf8Size)
  | .block opening, [], _ => opening
  | _, [], k => ⟨[], k⟩

/-- Past the spaces and comments before the next token. -/
def Cursor.skipTrivia (c : Cursor) : Cursor :=
  skipFrom .spaces c.rest c.offset

/-- Past the spaces before the next token or comment. -/
def Cursor.skipSpaces (c : Cursor) : Cursor :=
  (c.takeWhile isSpace).2

/-- The end of the block comment whose inside begins here. -/
def blockEnd? : List Char → Nat → Option Cursor
  | '*' :: '/' :: rest, k => some ⟨rest, k + 2⟩
  | c :: rest, k => blockEnd? rest (k + c.utf8Size)
  | [], _ => none

/-- The place after the next comment, if a comment comes before the next token. -/
def Cursor.afterComment? (c : Cursor) : Option Cursor :=
  let c := c.skipSpaces
  match c.rest with
  | '/' :: '/' :: _ => some (c.takeWhile fun x => !isTerminator x).2
  | '/' :: '*' :: rest => blockEnd? rest (c.offset + 2)
  | _ => none

/-! ### Understood semicolons -/

/-- A space in the narrower sense of the rule for understood semicolons. -/
def isPlainSpace (c : Char) : Bool :=
  let n := c.toNat
  (0x09 ≤ n && n ≤ 0x0d) || n == 0x20 || n == 0x1680 || (0x2000 ≤ n && n ≤ 0x2006)
    || (0x2008 ≤ n && n ≤ 0x200a) || n == 0x2028 || n == 0x2029 || n == 0x205f || n == 0x3000

/-- A line break in the sense of the rule for understood semicolons. -/
def isBreak (c : Char) : Bool :=
  c == '\n' || c == '\u2028' || c == '\u2029'

/-- What follows a block comment whose inside begins here, and whether it spans a line break. -/
def afterBlock (broken : Bool) : List Char → Bool × List Char
  | [] => (broken, [])
  | '*' :: '/' :: rest => (broken, rest)
  | c :: rest => afterBlock (broken || isBreak c) rest

/-- The outcome of a look over spaces and comments: a lone slash was met, or the rest from the next
other character on, with whether a break lies before it. -/
inductive Ahead where
  | slash
  | rest (broken : Bool) (cs : List Char)

/-- A look over spaces and comments.  Unless `through` is set it ends after the first block comment
that no slash follows. -/
def lookAhead (through : Bool) : Nat → List Char → Ahead
  | 0, cs => .rest true cs
  | fuel + 1, cs =>
      match cs.dropWhile isPlainSpace with
      | '/' :: '/' :: rest => lookAhead through fuel (rest.dropWhile fun c => !isBreak c)
      | '/' :: '*' :: rest =>
          let (broken, after) := afterBlock false rest
          if !through && after.head? != some '/' then .rest broken after
          else lookAhead through fuel after
      | '/' :: _ => .slash
      | other => .rest true other

/-- A letter, in the sense of the rule for understood semicolons. -/
def isLetter (c : Char) : Bool :=
  Text.isWord c && !Text.isAsciiDigit c && c != '_'

/-- After a line break a statement goes on if the next line begins with an operator that needs a
left operand; two doubled signs and a decimal point before a digit do not. -/
def beginsStatement : List Char → Bool
  | [] => true
  | '.' :: rest => rest.head?.any Text.isAsciiDigit
  | '+' :: rest => rest.head? == some '+'
  | '-' :: rest => rest.head? == some '-'
  | '!' :: rest => rest.head? != some '='
  | 'i' :: 'n' :: rest =>
      if !rest.head?.any isLetter then false
      else if rest.take 8 == "stanceof".toList then (rest.drop 8).head?.any isLetter
      else true
  | c :: _ => !"\x60,:;*%><=[(?^|&/".toList.contains c

/-- Whether a statement that may end here does end without a written semicolon: at the end of the
source, before a closing brace, and at a line break after which a statement begins.  `comments` says
whether a comment that holds a break is enough; it is not where an operator could follow. -/
def endsFrom (comments : Bool) : Nat → List Char → Bool
  | 0, _ => false
  | _ + 1, [] => true
  | fuel + 1, c :: rest =>
      if c == '/' then
        match lookAhead false fuel (c :: rest) with
        | .slash => false
        | .rest broken after =>
            match after with
            | [] => broken && comments
            | x :: more =>
                if broken && comments && x != ',' && x != '=' then true
                else if x == '}' then true
                else if isBreak x then nextLine fuel more
                else if isPlainSpace x then endsFrom comments fuel more
                else false
      else if c == '}' then true
      else if isBreak c then nextLine fuel rest
      else if isPlainSpace c then endsFrom comments fuel rest
      else false
where
  /-- Whether a statement begins after a line break. -/
  nextLine (fuel : Nat) (cs : List Char) : Bool :=
    match lookAhead true fuel cs with
    | .slash => false
    | .rest _ after => beginsStatement after

/-- Whether a statement that may end here does end without a written semicolon. -/
def endsStatement (comments : Bool) (cs : List Char) : Bool :=
  endsFrom comments (cs.length + 2) cs

/-! ### Tokens -/

/-- The length of a Unicode escape that may stand in a word, or zero. -/
def wordEscape : List Char → Nat
  | '\\' :: 'u' :: '\x7b' :: rest =>
      let digits := rest.takeWhile isHexDigit
      if !digits.isEmpty && rest[digits.length]? == some '\x7d' then digits.length + 4 else 0
  | '\\' :: 'u' :: rest => if (rest.take 4).length == 4 && (rest.take 4).all isHexDigit then 6 else 0
  | _ => 0

/-- The length of the run of word characters at the head of a text. -/
def wordLength : Nat → List Char → Nat
  | 0, _ => 0
  | _ + 1, [] => 0
  | fuel + 1, c :: rest =>
      if isWordPart c then 1 + wordLength fuel rest
      else
        match wordEscape (c :: rest) with
        | 0 => 0
        | n => n + wordLength fuel ((c :: rest).drop n)

/-- The word that begins here, and the place after it. -/
def Cursor.word? (c : Cursor) : Option (String × Cursor) :=
  match c.rest with
  | [] => none
  | x :: _ =>
      if isWordStart x || (x == '\\' && wordEscape c.rest != 0) then
        let n := wordLength (c.rest.length + 1) c.rest
        some (String.ofList (c.rest.take n), c.skip n)
      else none

/-- The length of a run of digits, in which single underscores may separate two digits. -/
def digitRun (p : Char → Bool) : List Char → Nat
  | '_' :: d :: rest => if p d then 2 + digitRun p rest else 0
  | d :: rest => if p d then 1 + digitRun p rest else 0
  | [] => 0

/-- The length of a run of digits that begins with a digit. -/
def digits (p : Char → Bool) (cs : List Char) : Nat :=
  if cs.head?.any p then digitRun p cs else 0

/-- The length of an exponent, or zero. -/
def exponentLength : List Char → Nat
  | e :: sign :: rest =>
      if e == 'e' || e == 'E' then
        if sign == '+' || sign == '-' then
          match digits Text.isAsciiDigit rest with
          | 0 => 0
          | n => n + 2
        else
          match digits Text.isAsciiDigit (sign :: rest) with
          | 0 => 0
          | n => n + 1
      else 0
  | _ => 0

/-- A whole number that a fraction or an exponent may follow: no second digit stands directly after
two zeros, and no underscore after a first zero. -/
def isWholePart : List Char → Bool
  | ['0'] => true
  | '0' :: d :: _ => '1' ≤ d && d ≤ '9'
  | _ => true

/-- The length of the decimal number at the head of a text, or zero. -/
def decimalLength (cs : List Char) : Nat :=
  match digits Text.isAsciiDigit cs with
  | 0 =>
      match cs with
      | '.' :: rest =>
          match digits Text.isAsciiDigit rest with
          | 0 => 0
          | n => 1 + n + exponentLength (rest.drop n)
      | _ => 0
  | n =>
      let whole := cs.take n
      let after := cs.drop n
      match after with
      | '.' :: rest =>
          if isWholePart whole then
            let k := digits Text.isAsciiDigit rest
            n + 1 + k + exponentLength (rest.drop k)
          else n
      | 'n' :: _ => n + 1
      | _ => if isWholePart whole then n + exponentLength after else n

/-- The length of the digits after a radix mark, with the mark of a big number, or zero. -/
def radixLength (p : Char → Bool) (rest : List Char) : Nat :=
  match digits p rest with
  | 0 => 0
  | n => if (rest.drop n).head? == some 'n' then n + 3 else n + 2

/-- The length of the number at the head of a text, or zero. -/
def numberLength (cs : List Char) : Nat :=
  let radix :=
    match cs with
    | '0' :: x :: rest =>
        if x == 'x' || x == 'X' then radixLength isHexDigit rest
        else if x == 'b' || x == 'B' then radixLength (fun d => d == '0' || d == '1') rest
        else if x == 'o' || x == 'O' then radixLength (fun d => '0' ≤ d && d ≤ '7') rest
        else 0
    | _ => 0
  if radix == 0 then decimalLength cs else radix

/-- The place after the number that begins here. -/
def Cursor.number? (c : Cursor) : Option Cursor :=
  match numberLength c.rest with
  | 0 => none
  | n => some (c.skip n)

/-- The length of the escape that follows a backslash, or zero if there is none. -/
def escapeLength : List Char → Nat
  | [] => 0
  | 'x' :: rest => if (rest.take 2).length == 2 && (rest.take 2).all isHexDigit then 3 else 0
  | 'u' :: '\x7b' :: rest =>
      let digits := rest.takeWhile isHexDigit
      if !digits.isEmpty && rest[digits.length]? == some '\x7d' then digits.length + 3 else 0
  | 'u' :: rest => if (rest.take 4).length == 4 && (rest.take 4).all isHexDigit then 5 else 0
  | '\r' :: x :: _ => if isTerminator x && x != '\r' then 2 else 1
  | c :: rest =>
      if '0' ≤ c && c ≤ '7' then
        1 + ((rest.take 2).takeWhile fun d => '0' ≤ d && d ≤ '7').length
      else 1

/-- The place after the string whose inside begins here.  A string may be broken over lines only
directly before its closing quote. -/
def stringEnd? (quote : Char) : Nat → Cursor → Option Cursor
  | 0, _ => none
  | fuel + 1, c =>
      match c.rest with
      | [] => none
      | x :: rest =>
          if x == quote then some (c.skip 1)
          else if x == '\\' then
            match escapeLength rest with
            | 0 => none
            | n => stringEnd? quote fuel (c.skip (n + 1))
          else if x == '\n' || x == '\r' then
            let after := c.skipTrivia
            if after.rest.head? == some quote then some (after.skip 1) else none
          else stringEnd? quote fuel (c.skip 1)

/-- The place after the string that begins here. -/
def Cursor.string? (c : Cursor) : Option Cursor :=
  match c.rest with
  | q :: _ =>
      if q == '\x27' || q == '\x22' then stringEnd? q (c.rest.length + 1) (c.skip 1) else none
  | [] => none

/-- How a stretch of template text ends. -/
inductive TemplateStop where
  | close
  | substitution
deriving DecidableEq, Repr

/-- The end of the template text that begins here, past the closing mark or the mark that opens a
substitution. -/
def templateText? : Nat → Cursor → Option (TemplateStop × Cursor)
  | 0, _ => none
  | fuel + 1, c =>
      match c.rest with
      | [] => none
      | '\x60' :: _ => some (.close, c.skip 1)
      | '$' :: '\x7b' :: _ => some (.substitution, c.skip 2)
      | '\\' :: rest =>
          match escapeLength rest with
          | 0 => none
          | n => templateText? fuel (c.skip (n + 1))
      | _ :: _ => templateText? fuel (c.skip 1)

/-- The length of the body of a regular expression, up to its closing slash; a slash inside a class
does not close it. -/
def regexBody? (inClass : Bool) : List Char → Option Nat
  | [] => none
  | '\n' :: _ => none
  | '\\' :: '\n' :: _ => none
  | '\\' :: _ :: rest => (regexBody? inClass rest).map (· + 2)
  | '/' :: rest => if inClass then (regexBody? true rest).map (· + 1) else some 0
  | '[' :: rest => (regexBody? true rest).map (· + 1)
  | ']' :: rest => (regexBody? false rest).map (· + 1)
  | _ :: rest => (regexBody? inClass rest).map (· + 1)

/-- The place after the regular expression that begins here. -/
def Cursor.regex? (c : Cursor) : Option Cursor :=
  match c.rest with
  | '/' :: rest =>
      match regexBody? false rest with
      | some (n + 1) =>
          let after := c.skip (n + 3)
          some (after.takeWhile fun x => 'a' ≤ x && x ≤ 'z').2
      | _ => none
  | _ => none

/-- The marks of the grammar, the longer ones first. -/
def marks : List String :=
  [">>>=", "===", "!==", ">>>", "<<=", ">>=", "**=", "&&=", "||=", "??=", "...",
   "=>", "==", "!=", "<=", ">=", "&&", "||", "??", "?.", "++", "--", "+=", "-=", "*=", "/=", "%=",
   "&=", "|=", "^=", "<<", ">>", "**",
   "\x7b", "\x7d", "(", ")", "[", "]", ";", ",", "<", ">", "+", "-", "*", "/", "%", "&", "|", "^",
   "!", "~", "?", ":", "=", ".", "\x60"]

/-- The marks as lists of characters. -/
def markTexts : List (List Char) :=
  marks.map String.toList

/-- The longest mark at the head of a text.  A question mark before a decimal fraction is no
optional access. -/
def markOf (cs : List Char) : List Char :=
  match cs with
  | '?' :: '.' :: d :: _ =>
      if Text.isAsciiDigit d then ['?'] else ['?', '.']
  | _ => (markTexts.find? fun m => m.isPrefixOf cs).getD []

/-- The mark that begins here; empty if none does. -/
def Cursor.mark (c : Cursor) : String :=
  String.ofList (markOf c.rest)

end Script

end SketchHost
