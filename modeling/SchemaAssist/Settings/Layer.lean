/-
# SchemaAssist.Settings.Layer — settings laid over settings

A table of settings changes the keys that it holds and keeps the others as they
were (`Settings.override`).  Two sections are read, `server` and `completion`;
all else is ignored.  A list of providers has to be a list of texts, and a log
level has to be one of the five names in any mixture of capitals.

A section that is no table is searched as far as its sort allows: a list or a
text does not hold the keys unless one of them occurs in it, and anything else
cannot be searched at all.

A message that would have to show an integer that is too long is not written;
then the settings are refused for that integer.
-/
import SchemaAssist.Settings.Basic
import SchemaAssist.Settings.Data
import SchemaAssist.Text.Capitals
import SchemaAssist.Text.Search

namespace SchemaAssist

set_option autoImplicit false

/-- The key of the providers offered for a generator. -/
def generatorKey : String := "generator_providers"

/-- The key of the providers without enums. -/
def enumlessKey : String := "enum_unsupported_providers"

def levelKey : String := "log_level"

/-- Why data is refused as settings. -/
inductive SettingsError where
  | notTexts (key : String) (value : Data)
  | unknownLevel (value : Data)
  | unreadableFile (path : String)
  | unsearchableSection
  | oversizedInteger
  deriving Inhabited

/-- The refusal in words; an unsearchable section and an integer that is too long
have none. -/
def SettingsError.message : SettingsError → String
  | notTexts key value =>
      "[completion] " ++ key ++ " must be a list of strings, got " ++ value.shown
  | unknownLevel value =>
      "[server] " ++ levelKey ++ " must be one of " ++
        ", ".intercalate (LogLevel.all.map LogLevel.name) ++ ", got " ++ value.shown
  | unreadableFile path => "Invalid TOML in " ++ path
  | unsearchableSection => ""
  | oversizedInteger => ""

/-- The refusal of a value that a message has to show. -/
def SettingsError.showing (value : Data) (error : SettingsError) : SettingsError :=
  if value.isShowable then error else oversizedInteger

namespace LogLevel

/-- The level of that name, in any mixture of capitals. -/
def ofText? (text : String) : Option LogLevel := all.find? (·.name == Text.upper text)

end LogLevel

namespace Data

/-- The value of a key in a section, `none` if the section does not have it. -/
def lookup? (part : Data) (key : String) : Except SettingsError (Option Data) :=
  match part with
  | table entries => .ok (entries.lookup key)
  | list items =>
      if items.any (·.text? == some key) then .error .unsearchableSection else .ok none
  | text value =>
      if Text.occursIn key.toList value.toList then .error .unsearchableSection else .ok none
  | _ => .error .unsearchableSection

end Data

namespace Settings

/-- The section of that name; an absent one is empty. -/
def sectionOf (entries : Entries) (name : String) : Data :=
  (entries.lookup name).getD (.table [])

def providersUnder (part : Data) (key : String) (base : List String) :
    Except SettingsError (List String) := do
  match ← part.lookup? key with
  | none => .ok base
  | some value =>
      match value.texts? with
      | some texts => .ok texts
      | none => .error (.showing value (.notTexts key value))

def levelUnder (part : Data) (base : LogLevel) : Except SettingsError LogLevel := do
  match ← part.lookup? levelKey with
  | none => .ok base
  | some value =>
      match value.text?.bind LogLevel.ofText? with
      | some level => .ok level
      | none => .error (.showing value (.unknownLevel value))

/-- The settings with those of a table laid over them. -/
def override (base : Settings) (entries : Entries) : Except SettingsError Settings := do
  let completion := sectionOf entries "completion"
  let generator ← providersUnder completion generatorKey base.completion.generatorProviders
  let enumless ← providersUnder completion enumlessKey base.completion.enumlessProviders
  let level ← levelUnder (sectionOf entries "server") base.logLevel
  .ok ⟨level, ⟨generator, enumless⟩⟩

end Settings

end SchemaAssist
