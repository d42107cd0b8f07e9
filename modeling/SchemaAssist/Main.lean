/-
# SchemaAssist.Main — the program

Collects the files that a command line may ask for, runs it, prints what it
leaves behind and exits with its code.
-/
import SchemaAssist.CommandLine

namespace SchemaAssist

set_option autoImplicit false

def Command.paths : Command → List String
  | .parse file => [Text.plainPath file]
  | .complete request =>
      [Text.plainPath request.file, (Command.settingsPath ⟨"/", []⟩ request).1]

def readText? (path : String) : IO (Option String) := do
  try
    return some (← IO.FS.readFile path)
  catch _ =>
    return none

/-- The folder of the program with the files that a command may read. -/
def gatheredFolder (command : Command) : IO Folder := do
  let location ← IO.currentDir
  let mut files := []
  for path in command.paths do
    if let some text ← readText? path then
      files := (path, text) :: files
  return ⟨toString location, files⟩

end SchemaAssist

open SchemaAssist in
def main (arguments : List String) : IO UInt32 := do
  match Command.ofArguments? arguments with
  | none =>
      IO.eprintln "Usage: parse FILE"
      IO.eprintln "       complete FILE --line N --character N [--config PATH] [--json]"
      return 2
  | some command =>
      let outcome := (command.run (← gatheredFolder command)).unstyled
      IO.print outcome.output
      IO.eprint outcome.errors
      if let some crash := outcome.crash then
        IO.eprintln crash.text
      return UInt32.ofNat outcome.exitCode
