/-
# SchemaAssist.CommandLine.Arguments — reading a command line

There are two commands.  `parse FILE` lists the blocks of a schema file, and
`complete FILE --line N --character N [--config PATH] [--json]` lists the
suggestions at a position.

Options may stand before and behind the file.  An option in long form has its
value behind an equals sign or as the next argument, whatever that looks like;
the short forms `-l` and `-c` have it right behind them or as the next argument.
If an option is given twice, the last one counts.  Two dashes end the options.
Anything else that starts with a dash is no option and makes the command line
wrong, as do missing or further arguments.
-/
import SchemaAssist.Text.Integer

namespace SchemaAssist

set_option autoImplicit false

structure CompleteRequest where
  file : String
  line : Int
  character : Int
  config : Option String
  asJson : Bool
  deriving DecidableEq, Inhabited

inductive Command where
  | parse (file : String)
  | complete (request : CompleteRequest)
  deriving DecidableEq, Inhabited

namespace Arguments

/-- The options of `complete`. -/
inductive OptionName where
  | line
  | character
  | config
  | json
  deriving DecidableEq, Inhabited

def longOption? : String → Option OptionName
  | "--line" => some .line
  | "--character" => some .character
  | "--config" => some .config
  | "--json" => some .json
  | _ => none

def shortOption? : Char → Option OptionName
  | 'l' => some .line
  | 'c' => some .character
  | _ => none

/-- An argument, read: a plain one, the end of the options, an option without a
value, or an option with one; `none` as the value stands for the next argument. -/
inductive Argument where
  | plain (text : String)
  | optionsEnd
  | flag (name : OptionName)
  | valued (name : OptionName) (value : Option String)
  deriving DecidableEq, Inhabited

/-- Reads an option in long form, with the text behind its equals sign. -/
def longForm? (name : String) (value : Option String) : Option Argument :=
  match longOption? name, value with
  | some .json, none => some (.flag .json)
  | some .json, some _ => none
  | some option, value => some (.valued option value)
  | none, _ => none

def shortForm? (letters : List Char) : Option Argument :=
  match letters with
  | [] => none
  | letter :: value =>
      (shortOption? letter).map fun option =>
        .valued option (if value.isEmpty then none else some (String.ofList value))

def argument? (text : String) : Option Argument :=
  match text.toList with
  | ['-', '-'] => some .optionsEnd
  | '-' :: '-' :: name =>
      let word := name.takeWhile (· != '=')
      let value := name.drop word.length
      longForm? (String.ofList ('-' :: '-' :: word))
        (if value.isEmpty then none else some (String.ofList (value.drop 1)))
  | '-' :: letter :: letters => shortForm? (letter :: letters)
  | _ => some (.plain text)

/-- The plain arguments, and the options with their values, last first. -/
structure Sorted where
  plain : List String
  options : List (OptionName × String)
  deriving DecidableEq, Inhabited

/-- Sorts arguments into plain ones and options, where only the known options are
admitted. -/
def sorted? (known : List OptionName) : Sorted → List String → Option Sorted
  | found, [] => some { found with plain := found.plain.reverse }
  | found, text :: rest =>
      let withOption (name : OptionName) (value : String) : Sorted :=
        { found with options := (name, value) :: found.options }
      match argument? text with
      | none => none
      | some (.plain text) => sorted? known { found with plain := text :: found.plain } rest
      | some .optionsEnd => some { found with plain := found.plain.reverse ++ rest }
      | some (.flag name) =>
          if known.contains name then sorted? known (withOption name "") rest else none
      | some (.valued name value) =>
          if !known.contains name then none
          else
            match value, rest with
            | some value, rest => sorted? known (withOption name value) rest
            | none, value :: rest => sorted? known (withOption name value) rest
            | none, [] => none

def complete? (arguments : List String) : Option Command := do
  let found ← sorted? [.line, .character, .config, .json] ⟨[], []⟩ arguments
  match found.plain with
  | [file] =>
      let line ← Text.integer? (← found.options.lookup .line)
      let character ← Text.integer? (← found.options.lookup .character)
      some (.complete
        { file, line, character
          config := found.options.lookup .config
          asJson := (found.options.lookup .json).isSome })
  | _ => none

def parse? (arguments : List String) : Option Command := do
  let found ← sorted? [] ⟨[], []⟩ arguments
  match found.plain with
  | [file] => some (.parse file)
  | _ => none

end Arguments

def Command.ofArguments? : List String → Option Command
  | "--" :: "parse" :: rest => Arguments.parse? rest
  | "--" :: "complete" :: rest => Arguments.complete? rest
  | "parse" :: rest => Arguments.parse? rest
  | "complete" :: rest => Arguments.complete? rest
  | _ => none

end SchemaAssist
