/-
**Arguments.**

A command line is a list of words.  A word is a value or names an option.  The name of an option may be
cut short as long as no other option begins like that, and its value may follow an equals sign.  After
two dashes every word is a value.

* `CommandLine.Switch` — an option;
* `CommandLine.Word`, `CommandLine.words` — words, and what they are for given options;
* `CommandLine.readOptions` — the options at the head of a command line.
-/

import SketchHost.Text.Digit

set_option relaxedAutoImplicit false
set_option autoImplicit false

namespace SketchHost

namespace CommandLine

/-! ### Words -/

/-- What an option asks for. -/
inductive SwitchKind where
  /-- The option stands alone. -/
  | flag
  /-- A value follows. -/
  | valued
  /-- The option asks for help. -/
  | help
deriving DecidableEq, Repr

/-- An option, with the two dashes of its name. -/
structure Switch where
  name : String
  kind : SwitchKind
deriving DecidableEq, Repr

/-- The short name of the option that asks for help. -/
def shortHelp : String := "-h"

/-- The option that asks for help. -/
def helpSwitch : Switch := ⟨"--help", .help⟩

/-- What a word is: a value, an option with the value that is attached to it, the two dashes, or none
of these. -/
inductive WordSort where
  | value
  | option (s : Switch) (attached : Option String)
  | divider
  | unknown
deriving DecidableEq, Repr

/-- A word of a command line. -/
structure Word where
  text : String
  sort : WordSort
deriving DecidableEq, Repr

/-- Digits up to the end of a word, or up to a line break at its end. -/
def isDigits (cs : List Char) : Bool :=
  match cs.span Text.isDigit with
  | (_ :: _, []) => true
  | (_ :: _, ['\n']) => true
  | _ => false

/-- A negative number: a minus sign and digits, with at most one point before the last run of them. -/
def isNegativeNumber : List Char → Bool
  | '-' :: rest =>
      isDigits rest ||
        match rest.dropWhile Text.isDigit with
        | '.' :: places => isDigits places
        | _ => false
  | _ => false

/-- The parts of a text before and after its first equals sign. -/
def splitEquals (cs : List Char) : List Char × Option String :=
  match cs.span (· != '=') with
  | (name, '=' :: value) => (name, some (String.ofList value))
  | _ => (cs, none)

/-- The options with a name that begins with a text. -/
def beginningWith (name : List Char) (switches : List Switch) : List Switch :=
  switches.filter fun s => name.isPrefixOf s.name.toList

/-- What a word that names no option is: negative numbers and phrases are values. -/
def sortOfOther (cs : List Char) : WordSort :=
  if isNegativeNumber cs || cs.contains ' ' then .value else .unknown

/-- What a word of at least two characters is that begins with a dash. -/
def sortOfDashed (switches : List Switch) (cs : List Char) : WordSort :=
  let (name, attached) := splitEquals cs
  if cs == shortHelp.toList then .option helpSwitch none
  else
    match switches.find? fun s => s.name.toList == name with
    | some s => .option s attached
    | none =>
        if ['-', '-'].isPrefixOf cs then
          match beginningWith name switches with
          | [] => sortOfOther cs
          | [s] => .option s attached
          | _ => .unknown
        else if shortHelp.toList.isPrefixOf cs then .unknown
        else sortOfOther cs

/-- What a word is for given options. -/
def sortOf (switches : List Switch) (text : String) : WordSort :=
  match text.toList with
  | '-' :: c :: rest => sortOfDashed switches ('-' :: c :: rest)
  | _ => .value

/-- The words of a command line. -/
def words (switches : List Switch) : List String → List Word
  | [] => []
  | text :: rest =>
      if text == "--" then ⟨text, .divider⟩ :: rest.map fun t => ⟨t, .value⟩
      else ⟨text, sortOf switches text⟩ :: words switches rest

/-- No word is lost or changed. -/
@[simp] theorem map_text_words (switches : List Switch) (args : List String) :
    (words switches args).map Word.text = args := by
  induction args with
  | nil => rfl
  | cons text rest ih =>
      unfold words
      split
      · simp [Function.comp_def]
      · simp [ih]

/-! ### Options -/

/-- Why a command line is not carried out. -/
inductive Refusal where
  /-- It asks for help. -/
  | help
  /-- It is not understood. -/
  | wrong
deriving DecidableEq, Repr

/-- The options that were given, in order, each with its value if it has one. -/
abbrev Options := List (String × Option String)

/-- Whether an option was given. -/
def Options.has (name : String) (o : Options) : Bool :=
  o.any fun given => given.1 == name

/-- The value of an option; the last one counts. -/
def Options.value? (name : String) (o : Options) : Option String :=
  (o.reverse.find? fun given => given.1 == name).bind (·.2)

/-- The values of an option. -/
def Options.values (name : String) (o : Options) : List String :=
  (o.filter fun given => given.1 == name).filterMap (·.2)

/-- The options at the head of a command line, up to the first value, and what is left. -/
def readOptions : List Word → Except Refusal (Options × List Word)
  | ⟨_, .option s (some value)⟩ :: rest =>
      if s.kind == .valued then
        (readOptions rest).map fun (o, left) => ((s.name, some value) :: o, left)
      else .error .wrong
  | ⟨_, .option s none⟩ :: ⟨next, sort⟩ :: rest =>
      match s.kind with
      | .help => .error .help
      | .flag =>
          (readOptions (⟨next, sort⟩ :: rest)).map fun (o, left) => ((s.name, none) :: o, left)
      | .valued =>
          if sort == .value then
            (readOptions rest).map fun (o, left) => ((s.name, some next) :: o, left)
          else .error .wrong
  | [⟨_, .option s none⟩] =>
      match s.kind with
      | .help => .error .help
      | .flag => .ok ([(s.name, none)], [])
      | .valued => .error .wrong
  | ⟨_, .unknown⟩ :: _ => .error .wrong
  | left => .ok ([], left)

/-- A command line of options alone. -/
def onlyOptions (ws : List Word) : Except Refusal Options :=
  match readOptions ws with
  | .ok (o, []) => .ok o
  | .ok _ => .error .wrong
  | .error r => .error r

/-- A command line of options and one value among them.  The two dashes may stand next to the value. -/
def withValue (ws : List Word) : Except Refusal (Options × String) := do
  let (before, left) ← readOptions ws
  let undivided := match left with
    | ⟨_, .divider⟩ :: rest => rest
    | _ => left
  match undivided with
  | ⟨value, .value⟩ :: ⟨_, .divider⟩ :: rest => return (before ++ (← onlyOptions rest), value)
  | ⟨value, .value⟩ :: rest => return (before ++ (← onlyOptions rest), value)
  | _ => .error .wrong

end CommandLine

end SketchHost
