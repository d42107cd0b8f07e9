/-
# SchemaAssist.Text.Split — trimming and splitting a line

Texts are cut at every character of a class (`splitWhere`), which yields one
piece more than there are such characters.  `words` keeps the pieces between
blanks that are not empty; `trim` takes the blanks off both ends.
-/
import SchemaAssist.Text.CharClass

namespace SchemaAssist.Text

set_option autoImplicit false

/-- The pieces between the characters satisfying `cut`, empty ones included. -/
def splitWhere (cut : Char → Bool) : List Char → List (List Char)
  | [] => [[]]
  | c :: rest =>
      if cut c then [] :: splitWhere cut rest
      else (splitWhere cut rest).modifyHead (c :: ·)

def trimEndWhere (drop : Char → Bool) (text : List Char) : List Char :=
  (text.reverse.dropWhile drop).reverse

def trimWhere (drop : Char → Bool) (text : List Char) : List Char :=
  trimEndWhere drop (text.dropWhile drop)

def trimStart (text : List Char) : List Char := text.dropWhile isBlank

def trim (text : List Char) : List Char := trimWhere isBlank text

/-- The maximal runs of characters that are no blanks. -/
def words (text : List Char) : List (List Char) :=
  (splitWhere isBlank text).filter (!·.isEmpty)

/-- The elements from position `start` up to `stop`.  A negative `stop` counts
from the end of the list. -/
def slice {α : Type} (items : List α) (start : Nat) (stop : Int) : List α :=
  let stop := if stop < 0 then stop + items.length else stop
  (items.take stop.toNat).drop start

end SchemaAssist.Text
