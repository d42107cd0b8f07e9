/-
# SchemaAssist.CommandLine.Json — suggestions as JSON

A list of suggestions is written one member a line, indented by two blanks a
level.  Texts are written in ASCII: quotes, backslashes and control characters
are escaped, and every other character beyond the visible ASCII ones is written
by its UTF-16 units in hexadecimal.
-/
import SchemaAssist.Completion
import SchemaAssist.Text.Quoted

namespace SchemaAssist.Json

set_option autoImplicit false

/-- A UTF-16 unit as an escape. -/
def unitEscape (unit : Nat) : List Char := '\\' :: 'u' :: Text.hexDigits 4 unit

def escapedChar (c : Char) : List Char :=
  let n := c.toNat
  if c = '"' ∨ c = '\\' then ['\\', c]
  else if c = '\n' then ['\\', 'n']
  else if c = '\r' then ['\\', 'r']
  else if c = '\t' then ['\\', 't']
  else if n = 8 then ['\\', 'b']
  else if n = 12 then ['\\', 'f']
  else if 32 ≤ n ∧ n < 127 then [c]
  else if n < 0x10000 then unitEscape n
  else unitEscape (0xd800 + (n - 0x10000) / 0x400) ++ unitEscape (0xdc00 + (n - 0x10000) % 0x400)

def string (text : String) : String :=
  String.ofList ('"' :: text.toList.flatMap escapedChar ++ ['"'])

def stringOrNull : Option String → String
  | none => "null"
  | some text => string text

def member (name value : String) : String := "    " ++ string name ++ ": " ++ value

def item (item : Item) : String :=
  let members :=
    [member "label" (string item.label),
     member "kind" (string item.kind.label),
     member "detail" (stringOrNull item.detail),
     member "insert_text" (stringOrNull item.insertText)]
  "  \x7b\n" ++ ",\n".intercalate members ++ "\n  \x7d"

def items (list : List Item) : String :=
  if list.isEmpty then "[]" else "[\n" ++ ",\n".intercalate (list.map item) ++ "\n]"

end SchemaAssist.Json
