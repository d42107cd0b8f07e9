/-
# SchemaAssist.Settings.Basic — the settings of the server

How much the server logs, and which providers completion offers or takes into
account.
-/
import SchemaAssist.Catalogue

namespace SchemaAssist

set_option autoImplicit false

/-- The levels of logging, from the most to the least talkative. -/
inductive LogLevel where
  | debug
  | info
  | warning
  | error
  | critical
  deriving DecidableEq, Inhabited

namespace LogLevel

def all : List LogLevel := [debug, info, warning, error, critical]

def name : LogLevel → String
  | debug => "DEBUG"
  | info => "INFO"
  | warning => "WARNING"
  | error => "ERROR"
  | critical => "CRITICAL"

/-- The number of a level: messages below it are not logged. -/
def threshold : LogLevel → Nat
  | debug => 10
  | info => 20
  | warning => 30
  | error => 40
  | critical => 50

end LogLevel

/-- The settings that completion depends on: the providers offered for a
generator, and the providers whose datasources cannot back enums. -/
structure CompletionSettings where
  generatorProviders : List String := Catalogue.generatorProviders
  enumlessProviders : List String := Catalogue.enumlessProviders
  deriving DecidableEq, Inhabited

structure Settings where
  logLevel : LogLevel := .info
  completion : CompletionSettings := {}
  deriving DecidableEq

instance : Inhabited Settings := ⟨{}⟩

end SchemaAssist
