/-
# SchemaAssist.Token — the tokens of a schema

A token is a lexeme and the place where it starts.  Places count lines and
columns from one, and only a line feed ends a line.  A stream is the list of
tokens of a text together with the place where the text ends; the end itself is
no token, so a stream cannot lack it or have it twice.
-/
import SchemaAssist.Tree

namespace SchemaAssist

set_option autoImplicit false

inductive Punct where
  | braceOpen
  | braceClose
  | parenOpen
  | parenClose
  | bracketOpen
  | bracketClose
  | equals
  | colon
  | comma
  | dot
  | question
  | atSign
  | doubleAt
  deriving DecidableEq, Inhabited

def Punct.text : Punct → String
  | braceOpen => "\x7b"
  | braceClose => "\x7d"
  | parenOpen => "("
  | parenClose => ")"
  | bracketOpen => "["
  | bracketClose => "]"
  | equals => "="
  | colon => ":"
  | comma => ","
  | dot => "."
  | question => "?"
  | atSign => "@"
  | doubleAt => "@@"

/-- The punctuation sign of one character; at-signs are read apart. -/
def Punct.ofChar? : Char → Option Punct
  | '\x7b' => some braceOpen
  | '\x7d' => some braceClose
  | '(' => some parenOpen
  | ')' => some parenClose
  | '[' => some bracketOpen
  | ']' => some bracketClose
  | '=' => some equals
  | ':' => some colon
  | ',' => some comma
  | '.' => some dot
  | '?' => some question
  | _ => none

/-- What a token says.  A string carries its text with the escapes undone. -/
inductive Lexeme where
  | word (text : String)
  | keyword (kind : BlockKind)
  | string (text : String)
  | number (text : String)
  | punct (p : Punct)
  | newline
  deriving DecidableEq, Inhabited

def Lexeme.text : Lexeme → String
  | word text => text
  | keyword kind => kind.keyword
  | string text => text
  | number text => text
  | punct p => p.text
  | newline => "\n"

/-- The name that a lexeme can serve as; block keywords are names too. -/
def Lexeme.name? : Lexeme → Option String
  | word text => some text
  | keyword kind => some kind.keyword
  | _ => none

/-- A place in a text: line and column, both counted from one. -/
structure Mark where
  line : Nat
  column : Nat
  deriving DecidableEq, Inhabited

namespace Mark

def start : Mark := ⟨1, 1⟩

def after (mark : Mark) (c : Char) : Mark :=
  if c = '\n' then ⟨mark.line + 1, 1⟩ else ⟨mark.line, mark.column + 1⟩

/-- The line as an editor counts it, from zero. -/
def row (mark : Mark) : Int := (mark.line : Int) - 1

end Mark

structure Token where
  lexeme : Lexeme
  mark : Mark
  deriving DecidableEq, Inhabited

/-- The tokens of a text and the place where the text ends. -/
structure TokenStream where
  tokens : List Token
  stop : Mark
  deriving DecidableEq, Inhabited

end SchemaAssist
