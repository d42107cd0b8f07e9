/-
# SchemaAssist.CommandLine — what the commands print

A command reads the schema file, and `complete` also the settings: those named
on the command line, or those that lie beside the schema.  A text that cannot be
read, settings that are refused and, for `parse`, a text that is no schema end
the command with a message and the exit code 1.  For `complete` a text that is
no schema is only worth a note.

Some faults end a command without any message of its own (`Crash`): a schema
file under what is no path, a settings file that was named and cannot be read, a
section of settings that cannot be searched, an integer in them that is too long,
and a position beyond the numbers that editors use.

Any line end in a file counts as a line feed.  What is printed has no styles of a
terminal in it, even if a file or a path has.
-/
import SchemaAssist.CommandLine.Arguments
import SchemaAssist.CommandLine.Files
import SchemaAssist.CommandLine.Json
import SchemaAssist.Session
import SchemaAssist.Text.Styling

namespace SchemaAssist

set_option autoImplicit false

/-- What ends a command without a message. -/
inductive Crash where
  | notAPath
  | unreadableSettings (fault : FileFault)
  | unsearchableSection
  | oversizedInteger
  | positionOutOfRange
  deriving DecidableEq, Inhabited

def Crash.text : Crash → String
  | notAPath => "cannot read the schema: " ++ FileFault.notAPath.text
  | unreadableSettings fault => "cannot read the settings: " ++ fault.text
  | unsearchableSection => "a section of the settings is no table"
  | oversizedInteger => "an integer in the settings is too long"
  | positionOutOfRange => "line and character must lie between 0 and 2147483647"

/-- What a command leaves behind. -/
structure Outcome where
  exitCode : Nat
  output : String
  errors : String
  crash : Option Crash
  deriving DecidableEq, Inhabited

namespace Outcome

def printed (output : String) : Outcome := ⟨0, output, "", none⟩

def refused (message : String) : Outcome := ⟨1, "", message ++ "\n", none⟩

def crashed (crash : Crash) : Outcome := ⟨1, "", "", some crash⟩

def noting (note : String) (outcome : Outcome) : Outcome :=
  { outcome with errors := note ++ outcome.errors }

def unstyled (outcome : Outcome) : Outcome :=
  { outcome with
    output := Text.unstyled outcome.output
    errors := Text.unstyled outcome.errors }

end Outcome

namespace Command

/-- The text of a file with line feeds as its only line ends. -/
def plainLines (text : String) : String := String.ofList (Text.withLineFeeds text.toList)

def unreadable (path : String) : FileFault → Outcome
  | .notAPath => .crashed .notAPath
  | fault =>
      .refused ("Error: cannot read " ++ path ++ ": " ++ fault.text ++ ": " ++ Text.quoted path)

def printedLines (lines : List String) : String := String.join (lines.map (· ++ "\n"))

/-! ## Listing blocks -/

def blockLine (block : Block) : String :=
  block.kind.keyword ++ " " ++ block.name ++ " (lines " ++ toString (block.startLine + 1) ++ "-" ++
    toString (block.endLine + 1) ++ "): " ++ ", ".intercalate (block.memberNames none)

def runParse (folder : Folder) (file : String) : Outcome :=
  let path := Text.plainPath file
  match folder.read path with
  | .error fault => unreadable path fault
  | .ok text =>
      let text := plainLines text
      match Schema.parse text with
      | .error error => .refused ("Parse error: " ++ (error.diagnostic path (some text)).text)
      | .ok schema => .printed (printedLines (schema.blocks.map blockLine))

/-! ## Listing suggestions -/

/-- The path of the settings for a request, and how messages show it. -/
def settingsPath (folder : Folder) (request : CompleteRequest) : String × String :=
  match request.config with
  | some config => (Text.plainPath config, Text.plainPath config)
  | none =>
      let sibling := siblingPath (Text.plainPath request.file) Settings.fileName
      (sibling, absolutePath folder.location sibling)

/-- The settings for a request, or the outcome that they end it with. -/
def settingsFor (folder : Folder) (request : CompleteRequest) : Except Outcome Settings :=
  let (path, shown) := settingsPath folder request
  match folder.read path, request.config with
  | .error .missing, none => .ok {}
  | .error fault, _ => .error (.crashed (.unreadableSettings fault))
  | .ok text, _ =>
      match Settings.ofFileText shown text with
      | .ok settings => .ok settings
      | .error .unsearchableSection => .error (.crashed .unsearchableSection)
      | .error .oversizedInteger => .error (.crashed .oversizedInteger)
      | .error error => .error (.refused ("Error: " ++ error.message))

def itemLine (item : Item) : String := item.label ++ "\t" ++ item.kind.label

def printedItems (asJson : Bool) (items : List Item) : String :=
  if asJson then Json.items items ++ "\n" else printedLines (items.map itemLine)

def answer (request : CompleteRequest) (settings : Settings) (text : String)
    (schema : Option Schema) : Outcome :=
  let cursor : Cursor := ⟨request.line, request.character⟩
  if !cursor.isAddressable then .crashed .positionOutOfRange
  else
    let items := Completion.items (.ofText text) cursor schema settings.completion
    .printed (printedItems request.asJson items)

def runComplete (folder : Folder) (request : CompleteRequest) : Outcome :=
  let path := Text.plainPath request.file
  match folder.read path with
  | .error fault => unreadable path fault
  | .ok text =>
      match settingsFor folder request with
      | .error outcome => outcome
      | .ok settings =>
          let text := plainLines text
          match Schema.parse text with
          | .ok schema => answer request settings text (some schema)
          | .error error =>
              (answer request settings text none).noting
                ("Note: schema does not parse, scanning lines instead (" ++
                  error.fault.message ++ ")\n")

def run (folder : Folder) : Command → Outcome
  | .parse file => runParse folder file
  | .complete request => runComplete folder request

end Command

/-- Run a command line.  A wrong one has the exit code 2. -/
def runCommandLine (folder : Folder) (arguments : List String) : Outcome :=
  match Command.ofArguments? arguments with
  | none => ⟨2, "", "", none⟩
  | some command => (command.run folder).unstyled

end SchemaAssist
