/-
# SchemaAssist.Text.Integer — whole numbers as people type them

A whole number may be typed in more than one way.  Blanks around it and a plus
sign do not count, nor do leading zeros, with or without underscores between
them, a fraction that consists of zeros, and single underscores between other
characters.  What is left when these are gone is the plain form: digits without
a leading zero, perhaps behind a minus, and not more characters than
`Integer.lengthBound`.

Zeros are dropped before the sign is looked at, so that they may also stand in
front of a minus.
-/
import SchemaAssist.Text.Search
import SchemaAssist.Text.Split

namespace SchemaAssist.Text

set_option autoImplicit false

namespace Integer

/-- The characters that a whole number may have in its plain form. -/
def lengthBound : Nat := 4300

/-- Whether `c` separates what is typed from what surrounds it.  Control
characters that separate records do not. -/
def isMargin (c : Char) : Bool := isBlank c && !(decide (0x1c ≤ c.toNat) && decide (c.toNat < 0x20))

/-- Whether a number may start with `c` once its leading zeros are gone. -/
def isLeader (c : Char) : Bool := c == '-' || (isDecimal c && c != '0')

/-! ## What does not count -/

/-- The text without a plus sign in front; a minus may not follow it. -/
def withoutPlus? : List Char → Option (List Char)
  | '+' :: '-' :: _ => none
  | '+' :: rest => some rest
  | text => some text

/-- The text behind leading zeros, of which `last` is the one read last: all of
them are dropped but one that stands alone or in front of a fraction. -/
def behindZeros? (last : Char) : List Char → Option (List Char)
  | [] => some [last]
  | c :: rest =>
      if c = '0' ∨ c = '_' then behindZeros? c rest
      else if c = '.' then some (last :: c :: rest)
      else if isLeader c then some (c :: rest)
      else none

def withoutZeros? : List Char → Option (List Char)
  | [] => none
  | c :: rest =>
      if c = '0' then behindZeros? c rest
      else if isLeader c then some (c :: rest)
      else none

/-- The text without a fraction that consists of zeros. -/
def withoutFraction (text : List Char) : List Char :=
  let whole := text.takeWhile (· != '.')
  match text.drop whole.length with
  | '.' :: '0' :: places => if places.all (· == '0') then whole else text
  | _ => text

def withoutSeparators (text : List Char) : List Char :=
  if text.head? = some '_' ∨ text.getLast? = some '_' ∨ occursIn ['_', '_'] text then text
  else text.filter (· != '_')

/-- The plain form of a number, if it starts like one. -/
def plain? (text : List Char) : Option (List Char) := do
  let text ← withoutZeros? (← withoutPlus? (trimWhere isMargin text))
  some (withoutSeparators (withoutFraction text))

/-! ## The plain form -/

def magnitude? : List Char → Option Nat
  | ['0'] => some 0
  | c :: rest =>
      if c != '0' && (c :: rest).all isDecimal then
        some ((c :: rest).foldl (fun n c => 10 * n + (c.toNat - 48)) 0)
      else none
  | [] => none

def value? (text : List Char) : Option Int :=
  if lengthBound < text.length then none
  else
    match text with
    | '-' :: digits => (magnitude? digits).map fun n => -(n : Int)
    | digits => (magnitude? digits).map fun n => (n : Int)

end Integer

def integer? (text : String) : Option Int := (Integer.plain? text.toList).bind Integer.value?

end SchemaAssist.Text
