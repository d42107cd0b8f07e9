/-
# SchemaAssist.Token.Lexer — from text to tokens

A text is read from left to right, one piece at a time (`pieceAt`).  A piece is
a gap or a lexeme:

* a space, a tab or a carriage return is a gap, and so is a comment: two
  slashes and all that follows on the line;
* a line feed is a lexeme, unless an open parenthesis or bracket lets the
  statement go on over the line end; then it is a gap;
* a string stands between double quotes.  A backslash takes the next character
  literally, a line feed included, except that `\n` and `\t` stand for a line
  feed and a tab;
* a number is a digit, or a minus sign before a digit, and all digits and dots
  that follow;
* a word is a letter or an underscore and all letters, numerals and underscores
  that follow; the five block keywords are lexemes of their own;
* at-signs stand alone or in pairs, other punctuation alone.

Opening and closing parentheses and brackets are counted together, and a
closing one without an opening one is not counted (`depthAfter`).

`lexFrom` walks the text character by character and counts the characters still
owed to the piece read last, so that a place is always the place behind what
has been walked over.
-/
import SchemaAssist.SyntaxError
import SchemaAssist.Text.CharClass

namespace SchemaAssist

set_option autoImplicit false

open Text

/-- The front of a text: a lexeme or a gap (`none`), and the number of
characters it is spelled with. -/
structure Piece where
  lexeme : Option Lexeme
  length : Nat
  deriving DecidableEq, Inhabited

/-! ## The pieces -/

def unescape (c : Char) : Char :=
  if c = 'n' then '\n' else if c = 't' then '\t' else c

/-- The text of a string whose opening quote has been read, and the number of
characters up to its closing quote, that quote included.  `none` if the line or
the text ends first. -/
def stringBody : List Char → Option (List Char × Nat)
  | [] => none
  | '"' :: _ => some ([], 1)
  | '\n' :: _ => none
  | '\\' :: [] => none
  | '\\' :: c :: rest =>
      (stringBody rest).map fun (text, length) => (unescape c :: text, length + 2)
  | c :: rest => (stringBody rest).map fun (text, length) => (c :: text, length + 1)

def isNumberChar (c : Char) : Bool := isDigit c || c == '.'

def isWordStart (c : Char) : Bool := isLetter c || c == '_'

def wordLexeme (text : String) : Lexeme :=
  match BlockKind.ofKeyword? text with
  | some kind => .keyword kind
  | none => .word text

/-- The piece at the front of `c :: rest`, under `depth` open parentheses and
brackets. -/
def pieceAt (depth : Nat) (c : Char) (rest : List Char) : Except SyntaxFault Piece :=
  if c = ' ' ∨ c = '\t' ∨ c = '\r' then .ok ⟨none, 1⟩
  else if c = '/' ∧ rest.head? = some '/' then
    .ok ⟨none, (rest.takeWhile (· != '\n')).length + 1⟩
  else if c = '\n' then .ok ⟨if depth = 0 then some .newline else none, 1⟩
  else if c = '"' then
    match stringBody rest with
    | some (text, length) => .ok ⟨some (.string (String.ofList text)), length + 1⟩
    | none => .error .unterminatedString
  else if isDigit c ∨ (c = '-' ∧ rest.head?.any isDigit) then
    let more := rest.takeWhile isNumberChar
    .ok ⟨some (.number (String.ofList (c :: more))), more.length + 1⟩
  else if isWordStart c then
    let more := rest.takeWhile isWordChar
    .ok ⟨some (wordLexeme (String.ofList (c :: more))), more.length + 1⟩
  else if c = '@' then
    if rest.head? = some '@' then .ok ⟨some (.punct .doubleAt), 2⟩
    else .ok ⟨some (.punct .atSign), 1⟩
  else
    match Punct.ofChar? c with
    | some sign => .ok ⟨some (.punct sign), 1⟩
    | none => .error (.unexpectedCharacter c)

/-! ## The whole text -/

def depthAfter (depth : Nat) : Option Lexeme → Nat
  | some (.punct .parenOpen) | some (.punct .bracketOpen) => depth + 1
  | some (.punct .parenClose) | some (.punct .bracketClose) => depth - 1
  | _ => depth

/-- The tokens of a text from a place on, where `owed` characters still belong
to the piece read last. -/
def lexFrom : (depth : Nat) → Mark → (owed : Nat) → List Char → Except SyntaxError TokenStream
  | _, mark, _, [] => .ok ⟨[], mark⟩
  | depth, mark, owed + 1, c :: rest => lexFrom depth (mark.after c) owed rest
  | depth, mark, 0, c :: rest =>
      match pieceAt depth c rest with
      | .error fault => .error ⟨fault, mark⟩
      | .ok ⟨none, length⟩ => lexFrom depth (mark.after c) (length - 1) rest
      | .ok ⟨some lexeme, length⟩ =>
          match lexFrom (depthAfter depth (some lexeme)) (mark.after c) (length - 1) rest with
          | .error error => .error error
          | .ok stream => .ok { stream with tokens := ⟨lexeme, mark⟩ :: stream.tokens }

def TokenStream.ofText (text : String) : Except SyntaxError TokenStream :=
  lexFrom 0 Mark.start 0 text.toList

end SchemaAssist
