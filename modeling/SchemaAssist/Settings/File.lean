/-
# SchemaAssist.Settings.File — settings from a file, and from an editor over it

Settings may lie in a file in the root of a workspace.  The file is TOML, and
any line end in it counts as a line feed.  Without a file the defaults hold.  An
editor may hand over a table of its own, which is laid over the file's; anything
else that it hands over is ignored.
-/
import SchemaAssist.Settings.Layer
import SchemaAssist.Settings.Toml
import SchemaAssist.Text.Lines

namespace SchemaAssist.Settings

set_option autoImplicit false

def fileName : String := "prisma-lsp.toml"

def ofFileText (path text : String) : Except SettingsError Settings :=
  match Toml.parse (String.ofList (Text.withLineFeeds text.toList)) with
  | .error .malformed => .error (.unreadableFile path)
  | .error .oversizedInteger => .error .oversizedInteger
  | .ok entries => ({} : Settings).override entries

/-- The settings of a root, given the text of its file if there is one. -/
def ofRoot (path : String) : Option String → Except SettingsError Settings
  | none => .ok {}
  | some text => ofFileText path text

/-- The settings of a root with what an editor hands over laid over them. -/
def load (path : String) (file : Option String) (options : Data) :
    Except SettingsError Settings := do
  let settings ← ofRoot path file
  match options with
  | .table entries => settings.override entries
  | _ => .ok settings

end SchemaAssist.Settings
