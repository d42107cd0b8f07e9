/-
# SchemaAssist.Text.Styling — texts without the styles of a terminal

A terminal takes an escape character, an opening bracket, a run of parameters
and a letter as a style for what follows and shows none of them.  A text that is
not printed on a terminal goes without such codes (`unstyled`).  An escape
character that starts no whole code stays, and so does a code that only comes
about because another one was dropped.
-/
import SchemaAssist.Text.CharClass

namespace SchemaAssist.Text

set_option autoImplicit false

def isStyleParameter (c : Char) : Bool := c == ';' || c == '?' || isDecimal c

def styleLength? : List Char → Option Nat
  | '\x1b' :: '[' :: rest =>
      let parameters := rest.takeWhile isStyleParameter
      if (rest.drop parameters.length).head?.any Char.isAlpha then some (parameters.length + 3)
      else none
  | _ => none

/-- The text without style codes, where the first `owed` characters still belong
to one. -/
def unstyledFrom : (owed : Nat) → List Char → List Char
  | _, [] => []
  | owed + 1, _ :: rest => unstyledFrom owed rest
  | 0, c :: rest =>
      match styleLength? (c :: rest) with
      | some length => unstyledFrom (length - 1) rest
      | none => c :: unstyledFrom 0 rest

def unstyled (text : String) : String := String.ofList (unstyledFrom 0 text.toList)

end SchemaAssist.Text
