/-
# SchemaAssist.SyntaxError — what can be wrong with the text of a schema

A text that is no schema is refused at one place and for one of five causes.
Two of them concern characters: a string without its closing quote (the place
is the opening quote), and a character that starts no token.  The others
concern tokens: something definite was expected and something else stood there,
a statement went on where it should have ended, or the text ended inside a
block (the place is the keyword of that block).
-/
import SchemaAssist.Token
import SchemaAssist.Diagnostic
import SchemaAssist.Text.Quoted

namespace SchemaAssist

set_option autoImplicit false

/-- What a schema would have gone on with. -/
inductive Expectation where
  | sign (p : Punct)
  | name
  | value
  | blockKeyword
  deriving DecidableEq, Inhabited

def Expectation.text : Expectation → String
  | sign p => p.text
  | name => "identifier"
  | value => "a value"
  | blockKeyword => "a block keyword"

/-- What stood there instead; `none` is the end of the text. -/
def foundText : Option Lexeme → String
  | none => "end of file"
  | some .newline => "end of line"
  | some lexeme => Text.quoted lexeme.text

inductive SyntaxFault where
  | unterminatedString
  | unexpectedCharacter (c : Char)
  | expected (what : Expectation) (found : Option Lexeme)
  | unexpected (found : Option Lexeme)
  | unterminatedBlock (kind : BlockKind) (name : String)
  deriving DecidableEq, Inhabited

def SyntaxFault.message : SyntaxFault → String
  | unterminatedString => "Unterminated string"
  | unexpectedCharacter c => "Unexpected character " ++ Text.quoted (String.singleton c)
  | expected what found => "Expected " ++ what.text ++ ", got " ++ foundText found
  | unexpected found => "Unexpected " ++ foundText found
  | unterminatedBlock kind name => "Unterminated " ++ kind.keyword ++ " block '" ++ name ++ "'"

structure SyntaxError where
  fault : SyntaxFault
  mark : Mark
  deriving DecidableEq, Inhabited

/-- The error as shown to a reader, with an excerpt if the source is at hand. -/
def SyntaxError.diagnostic (error : SyntaxError) (file : String) (source : Option String) :
    Diagnostic :=
  { detail := error.fault.message
    place := some
      { file := file
        line := error.mark.line
        column := error.mark.column
        excerpt := source.map (excerptOf · error.mark.line) } }

end SchemaAssist
