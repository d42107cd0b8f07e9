/-
# SchemaAssist.Text.Search — finding a pattern on a line

A pattern is a function that looks at the character before a position (`none`
at the start of the line) and at the text from there on, and answers what it
found.  `firstMatch` tries it at every position from left to right, the end of
the line included, and keeps the first answer.
-/
import SchemaAssist.Text.CharClass

namespace SchemaAssist.Text

set_option autoImplicit false

/-- What a pattern reads at a position: the character before it and the text
after it. -/
abbrev Pattern (α : Type) := Option Char → List Char → Option α

/-- The text after `word`, if the text begins with it. -/
def stripWord : List Char → List Char → Option (List Char)
  | [], text => some text
  | _ :: _, [] => none
  | w :: word, c :: text => if c = w then stripWord word text else none

def firstMatchFrom {α : Type} (pattern : Pattern α) : Option Char → List Char → Option α
  | before, [] => pattern before []
  | before, c :: rest =>
      match pattern before (c :: rest) with
      | some found => some found
      | none => firstMatchFrom pattern (some c) rest

def firstMatch {α : Type} (pattern : Pattern α) (line : List Char) : Option α :=
  firstMatchFrom pattern none line

/-- The pattern of `word` at a word boundary; it answers with the text after the
word. -/
def atBoundary (word : List Char) : Pattern (List Char) := fun before text =>
  if isWordBoundary before text.head? then stripWord word text else none

/-- The pattern of `word` that ends where no word character follows. -/
def endingWord (word : List Char) : Pattern Unit := fun _ text =>
  match stripWord word text with
  | some rest => if isWordBoundary word.getLast? rest.head? then some () else none
  | none => none

def wholeWord (word : List Char) : Pattern Unit := fun before text =>
  if isWordBoundary before text.head? then endingWord word before text else none

def occursIn (word line : List Char) : Bool :=
  (firstMatch (fun _ text => stripWord word text) line).isSome

end SchemaAssist.Text
