/-
# SchemaAssist.Text.CharClass — the character classes that texts are read with

* a *blank* separates words and may surround anything on a line;
* a *letter* starts a name, a *digit* starts a number;
* a *word character* is a letter, a digit, any other numeral, or the underscore:
  names consist of them, and a *word boundary* lies where one of them stands
  beside a character that is none (or beside the end of the text);
* an *unprintable* character is escaped where a text is quoted.

No blank is a word character, so a run of blanks and a run of word characters
never compete for the same text.
-/
import SchemaAssist.Text.CodeRanges
import SchemaAssist.Text.Letters
import SchemaAssist.Text.Numerals
import SchemaAssist.Text.Unprintable

namespace SchemaAssist.Text

set_option autoImplicit false

/-- The blanks, line ends included. -/
def blankRanges : CodeRanges :=
  [(0x9, 0xd), (0x1c, 0x20), (0x85, 0x85), (0xa0, 0xa0), (0x1680, 0x1680), (0x2000, 0x200a),
   (0x2028, 0x2029), (0x202f, 0x202f), (0x205f, 0x205f), (0x3000, 0x3000)]

def isBlank (c : Char) : Bool := blankRanges.has c.toNat

/-- Whether `c` is a letter of some script. -/
def isLetter (c : Char) : Bool := letterRanges.has c.toNat

/-- Whether `c` is a digit of some script, superscripts and the like included. -/
def isDigit (c : Char) : Bool := digitRanges.has c.toNat

/-- Whether `c` is one of the ten digits of ASCII. -/
def isDecimal (c : Char) : Bool := decide ('0' ≤ c) && decide (c ≤ '9')

/-- Whether `c` is a letter, a digit or any other numeral. -/
def isAlphanumeric (c : Char) : Bool :=
  isLetter c || isDigit c || numeralRanges.has c.toNat

def isWordChar (c : Char) : Bool := isAlphanumeric c || c == '_'

def isUnprintable (c : Char) : Bool := unprintableRanges.has c.toNat

/-- Whether a word starts or ends between two neighbours; `none` stands for the
end of the text. -/
def isWordBoundary (before after : Option Char) : Bool :=
  before.any isWordChar != after.any isWordChar

end SchemaAssist.Text
