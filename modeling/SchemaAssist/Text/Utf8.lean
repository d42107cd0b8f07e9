/-
# SchemaAssist.Text.Utf8 — lenient decoding of bytes

Bytes are read as UTF-8.  Wherever they are no UTF-8, one replacement character
stands for the longest run of bytes that begins some character, and reading
goes on with the byte that spoiled it.  Characters that were never bytes may
stand between the bytes and end an unfinished run.
-/

namespace SchemaAssist.Text

set_option autoImplicit false

/-- A character of which some bytes are still owed: how many, the bits read so
far, and the range that the next byte has to lie in. -/
structure Utf8Debt where
  owed : Nat
  bits : Nat
  low : Nat
  high : Nat

def replacement : Char := '\ufffd'

def utf8Start (byte : Nat) : List Char × Option Utf8Debt :=
  if byte < 0x80 then ([Char.ofNat byte], none)
  else if byte < 0xc2 then ([replacement], none)
  else if byte < 0xe0 then ([], some ⟨1, byte - 0xc0, 0x80, 0xbf⟩)
  else if byte = 0xe0 then ([], some ⟨2, 0, 0xa0, 0xbf⟩)
  else if byte = 0xed then ([], some ⟨2, 0xd, 0x80, 0x9f⟩)
  else if byte < 0xf0 then ([], some ⟨2, byte - 0xe0, 0x80, 0xbf⟩)
  else if byte = 0xf0 then ([], some ⟨3, 0, 0x90, 0xbf⟩)
  else if byte < 0xf4 then ([], some ⟨3, byte - 0xf0, 0x80, 0xbf⟩)
  else if byte = 0xf4 then ([], some ⟨3, 4, 0x80, 0x8f⟩)
  else ([replacement], none)

def utf8Step : Option Utf8Debt → Nat → List Char × Option Utf8Debt
  | none, byte => utf8Start byte
  | some debt, byte =>
      if debt.low ≤ byte ∧ byte ≤ debt.high then
        let bits := debt.bits * 64 + (byte - 0x80)
        if debt.owed ≤ 1 then ([Char.ofNat bits], none)
        else ([], some ⟨debt.owed - 1, bits, 0x80, 0xbf⟩)
      else
        let (chars, debt) := utf8Start byte
        (replacement :: chars, debt)

def utf8Unfinished : Option Utf8Debt → List Char
  | none => []
  | some _ => [replacement]

/-- Decode a mixture of bytes and characters. -/
def utf8Decode : Option Utf8Debt → List (Nat ⊕ Char) → List Char
  | debt, [] => utf8Unfinished debt
  | debt, .inr c :: rest => utf8Unfinished debt ++ c :: utf8Decode none rest
  | debt, .inl byte :: rest =>
      let (chars, debt) := utf8Step debt byte
      chars ++ utf8Decode debt rest

end SchemaAssist.Text
