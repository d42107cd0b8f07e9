/-
# SchemaAssist.Text.Capitals — full upper-casing

Every character is replaced by its upper-case form, which may be spelled with
several characters; characters without one stay.  The rule is the one of the
Unicode tables and knows no locale: the dotless `ı` becomes `I`.
-/
import SchemaAssist.Text.CaseTable

namespace SchemaAssist.Text

set_option autoImplicit false

def CapitalRun.has (run : CapitalRun) (n : Nat) : Bool :=
  decide (run.first ≤ n) && decide (n ≤ run.last) && (n - run.first) % run.stride == 0

def capitals (c : Char) : List Char :=
  match capitalRuns.find? (·.has c.toNat) with
  | some run => [Char.ofNat (c.toNat + run.shift).toNat]
  | none =>
    match capitalSpellings.lookup c.toNat with
    | some spelling => spelling.map Char.ofNat
    | none => [c]

def upper (text : String) : String := String.ofList (text.toList.flatMap capitals)

end SchemaAssist.Text
