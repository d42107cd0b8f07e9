/-
# SchemaAssist.Document — a text as an editor shows it

A document is its lines, without their line feeds and carriage returns.  A
cursor is a line and a number of characters on it, both counted from zero and
both possibly out of range: a line that does not exist reads as an empty line,
and a position beyond the end of a line is its end.
-/
import SchemaAssist.Text.Lines

namespace SchemaAssist

set_option autoImplicit false

/-- The lines of an open text. -/
structure Document where
  lines : List (List Char)
  deriving DecidableEq, Inhabited

structure Cursor where
  line : Int
  character : Int
  deriving DecidableEq, Inhabited

namespace Document

def ofText (text : String) : Document := ⟨Text.editorLines text.toList⟩

/-- The line of that number, or an empty one. -/
def line (document : Document) (number : Int) : List Char :=
  if number < 0 then [] else document.lines.getD number.toNat []

def textBefore (document : Document) (cursor : Cursor) : List Char :=
  (document.line cursor.line).take cursor.character.toNat

/-- The `length` characters in front of the cursor, fewer at the start of the
line. -/
def symbolBefore (document : Document) (cursor : Cursor) (length : Int) : List Char :=
  let line := document.line cursor.line
  let stop := min cursor.character line.length
  Text.slice line (stop - length).toNat stop

end Document

end SchemaAssist
