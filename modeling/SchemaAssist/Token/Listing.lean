/-
# SchemaAssist.Token.Listing — tokens in plain words

For inspection a stream is shown as a list of entries: the class of each token,
its text and its place, and one last entry for the end of the text.
-/
import SchemaAssist.Token
import SchemaAssist.Text.Quoted

namespace SchemaAssist

set_option autoImplicit false

def Punct.className : Punct → String
  | braceOpen => "LBRACE"
  | braceClose => "RBRACE"
  | parenOpen => "LPAREN"
  | parenClose => "RPAREN"
  | bracketOpen => "LBRACKET"
  | bracketClose => "RBRACKET"
  | equals => "EQUALS"
  | colon => "COLON"
  | comma => "COMMA"
  | dot => "DOT"
  | question => "QUESTION"
  | atSign => "AT"
  | doubleAt => "DOUBLE_AT"

def BlockKind.className : BlockKind → String
  | datasource => "DATASOURCE"
  | generator => "GENERATOR"
  | model => "MODEL"
  | enum => "ENUM"
  | typeAlias => "TYPE_ALIAS"

def Lexeme.className : Lexeme → String
  | word _ => "IDENTIFIER"
  | keyword kind => kind.className
  | string _ => "STRING"
  | number _ => "NUMBER"
  | punct p => p.className
  | newline => "NEWLINE"

structure TokenEntry where
  className : String
  text : String
  mark : Mark
  deriving DecidableEq, Inhabited

def TokenEntry.line (entry : TokenEntry) : String :=
  "Token(" ++ entry.className ++ ", " ++ Text.quoted entry.text ++ ", " ++
    toString entry.mark.line ++ ":" ++ toString entry.mark.column ++ ")"

def Token.entry (token : Token) : TokenEntry :=
  ⟨token.lexeme.className, token.lexeme.text, token.mark⟩

/-- The entries of a stream, with one for its end. -/
def TokenStream.entries (stream : TokenStream) : List TokenEntry :=
  stream.tokens.map Token.entry ++ [⟨"EOF", "", stream.stop⟩]

end SchemaAssist
