/-
**The command.**

The outermost layer: it reads and writes files, and leaves everything else to the answers of requests.

* `CommandLine.systemHost` — the host that reads files and the standard input;
* `CommandLine.carryOut` — one request;
* `main` — one command line.
-/

import SketchHost.CommandLine.Answer

set_option relaxedAutoImplicit false
set_option autoImplicit false

namespace SketchHost

namespace CommandLine

/-- A digit in base sixteen. -/
def hexDigit (n : Nat) : Char :=
  "0123456789abcdef".toList.getD n '0'

/-- Random digits in base sixteen. -/
def randomDigits : Nat → IO (List Char)
  | 0 => return []
  | n + 1 => return hexDigit (← IO.rand 0 15) :: (← randomDigits n)

/-- A random identifier: five groups of digits, marked as random. -/
def randomId : IO String := do
  let a ← randomDigits 8
  let b ← randomDigits 4
  let c ← randomDigits 3
  let v ← IO.rand 8 11
  let d ← randomDigits 3
  let e ← randomDigits 12
  return String.ofList (a ++ '-' :: b ++ '-' :: '4' :: c ++ '-' :: hexDigit v :: d ++ '-' :: e)

/-- The host that reads files and the standard input. -/
def systemHost : Host IO where
  file? path := do
    match ← (IO.FS.readFile path).toBaseIO with
    | .ok text => return some text
    | .error _ => return none
  input := do (← IO.getStdin).readToEnd
  newId := randomId

/-- The directory of a path; empty if there is none. -/
def directoryOf (path : String) : String :=
  String.ofList ((path.toList.reverse.dropWhile (· != '/')).drop 1).reverse

/-- Writes a file, and the directories above it. -/
def writeText (path : String) (text : List Char) : IO Unit := do
  let directory := directoryOf path
  if !directory.isEmpty then IO.FS.createDirAll directory
  IO.FS.writeFile path (String.ofList text)

/-- How the command is used. -/
def usage : String :=
  "usage: sketchbridge [-h] [--config CONFIG] \x7btranspile,map-error,scaffold\x7d ..."

/-- Carries out a request: the exit code. -/
def carryOut (i : Invocation) : IO UInt32 := do
  match ← (i.answer systemHost).run with
  | .error o =>
      IO.eprintln o.message
      return 1
  | .ok report =>
      for (path, text) in report.files do writeText path text
      IO.print (String.ofList report.printed)
      match report.failure with
      | some message =>
          IO.eprintln message
          return 1
      | none => return 0

/-- Carries out a command line: the exit code. -/
def run (args : List String) : IO UInt32 := do
  match Invocation.ofArguments args with
  | .ok i => carryOut i
  | .error .help =>
      IO.println usage
      return 0
  | .error .wrong =>
      IO.eprintln usage
      return 2

end CommandLine

end SketchHost

/-- One command line. -/
def main (args : List String) : IO UInt32 :=
  SketchHost.CommandLine.run args
