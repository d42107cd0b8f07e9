/-
# SchemaAssist.Text.Lines — two ways to count lines

An editor ends a line at any of a dozen line ends (`editorLines`).  The pair of
carriage return and line feed is one line end, a final line end starts no
further line, and the empty text has no line.  Carriage return and line feed
are taken off their line; the rarer line ends stay as its last character.

A schema counts lines by line feeds alone (`feedLines`): there is always one
more of them than there are line feeds.
-/
import SchemaAssist.Text.Split

namespace SchemaAssist.Text

set_option autoImplicit false

/-- The line ends other than carriage return and line feed. -/
def isRareLineEnd (c : Char) : Bool :=
  c == '\x0b' || c == '\x0c' || c == '\x1c' || c == '\x1d' || c == '\x1e' ||
    c == '\x85' || c == '\u2028' || c == '\u2029'

def consLine (c : Char) : List (List Char) → List (List Char)
  | [] => [[c]]
  | line :: rest => (c :: line) :: rest

def editorLines : List Char → List (List Char)
  | [] => []
  | '\r' :: '\n' :: rest => [] :: editorLines rest
  | c :: rest =>
      if c = '\n' ∨ c = '\r' then [] :: editorLines rest
      else if isRareLineEnd c then [c] :: editorLines rest
      else consLine c (editorLines rest)

def feedLines (text : List Char) : List (List Char) :=
  splitWhere (· == '\n') text

/-- The text with every line end that is or holds a carriage return replaced by
one line feed. -/
def withLineFeeds : List Char → List Char
  | [] => []
  | '\r' :: '\n' :: rest => '\n' :: withLineFeeds rest
  | '\r' :: rest => '\n' :: withLineFeeds rest
  | c :: rest => c :: withLineFeeds rest

end SchemaAssist.Text
