/-
# SchemaAssist.Text.Percent — percent-encoding undone

A percent sign with two hexadecimal digits stands for a byte; any other percent
sign stands for itself.  The bytes, those of plain ASCII characters among them,
are decoded as UTF-8.  Two addresses name the same document when their decoded
forms are equal.
-/
import SchemaAssist.Text.Utf8

namespace SchemaAssist.Text

set_option autoImplicit false

def hexValue? (c : Char) : Option Nat :=
  let n := c.toNat
  if 48 ≤ n ∧ n ≤ 57 then some (n - 48)
  else if 65 ≤ n ∧ n ≤ 70 then some (n - 55)
  else if 97 ≤ n ∧ n ≤ 102 then some (n - 87)
  else none

/-- A character outside an escape: a byte if it is ASCII. -/
def plainUnit (c : Char) : Nat ⊕ Char :=
  if c.toNat < 128 then .inl c.toNat else .inr c

/-- The text with its escapes read as bytes. -/
def percentUnits : List Char → List (Nat ⊕ Char)
  | [] => []
  | '%' :: high :: low :: rest =>
      match hexValue? high, hexValue? low with
      | some x, some y => .inl (16 * x + y) :: percentUnits rest
      | _, _ => plainUnit '%' :: percentUnits (high :: low :: rest)
  | c :: rest => plainUnit c :: percentUnits rest

def percentDecoded (text : String) : String :=
  String.ofList (utf8Decode none (percentUnits text.toList))

end SchemaAssist.Text
