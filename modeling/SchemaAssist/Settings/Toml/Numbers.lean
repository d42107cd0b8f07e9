/-
# SchemaAssist.Settings.Toml.Numbers — numbers, dates and times of TOML

Integers are decimal with an optional sign, or hexadecimal, octal or binary
without one.  A fraction or an exponent makes a floating-point number.  Single
underscores may separate digits.  A date is `YYYY-MM-DD`; a time `HH:MM:SS` may
follow it behind a `T` or a space, with a fraction of a second and a distance
from universal time.  A time may also stand alone.

A recogniser answers with `none` if its sort of value does not stand in front of
the text, and then the next sort is tried.  Refused for good (`Fault`) are a date
that does not exist and a decimal integer with too many digits.
-/
import SchemaAssist.Settings.Data

namespace SchemaAssist.Toml

set_option autoImplicit false

open Text (isDecimal)

/-! ## Refusals -/

/-- Why a text cannot be read: it is no TOML, or it holds a decimal integer with
too many digits. -/
inductive Fault where
  | malformed
  | oversizedInteger
  deriving DecidableEq, Inhabited

/-- What a recogniser found; the text is no TOML if that is nothing. -/
def required {α : Type} : Option α → Except Fault α
  | some found => .ok found
  | none => .error .malformed

/-! ## Digits -/

def isHexadecimal (c : Char) : Bool :=
  isDecimal c || (decide ('a' ≤ c) && decide (c ≤ 'f')) || (decide ('A' ≤ c) && decide (c ≤ 'F'))

def digitValue (c : Char) : Nat :=
  if isDecimal c then c.toNat - 48 else if 'a' ≤ c then c.toNat - 87 else c.toNat - 55

def spelled (base : Nat) (digits : List Char) : Nat :=
  digits.foldl (fun n c => base * n + digitValue c) 0

/-- The digits in front, behind a first one: underscores between them are
dropped. -/
def moreDigits (isIn : Char → Bool) : List Char → List Char × List Char
  | [] => ([], [])
  | '_' :: c :: rest =>
      if isIn c then
        let (digits, rest) := moreDigits isIn rest
        (c :: digits, rest)
      else ([], '_' :: c :: rest)
  | c :: rest =>
      if isIn c then
        let (digits, rest) := moreDigits isIn rest
        (c :: digits, rest)
      else ([], c :: rest)

def digits? (isIn : Char → Bool) : List Char → Option (List Char × List Char)
  | c :: rest =>
      if isIn c then
        let (digits, rest) := moreDigits isIn rest
        some (c :: digits, rest)
      else none
  | [] => none

/-! ## Numbers -/

/-- An integer in another base than ten. -/
def basedInteger? : List Char → Option (Data × List Char)
  | '0' :: 'x' :: rest =>
      (digits? isHexadecimal rest).map fun (digits, rest) => (.int (spelled 16 digits), rest)
  | '0' :: 'o' :: rest =>
      (digits? (fun c => isDecimal c && decide (c ≤ '7')) rest).map fun (digits, rest) =>
        (.int (spelled 8 digits), rest)
  | '0' :: 'b' :: rest =>
      (digits? (fun c => c == '0' || c == '1') rest).map fun (digits, rest) =>
        (.int (spelled 2 digits), rest)
  | _ => none

/-- The sign in front: whether it is a minus, and the text behind it. -/
def sign : List Char → Bool × List Char
  | '-' :: rest => (true, rest)
  | '+' :: rest => (false, rest)
  | text => (false, text)

/-- The whole part of a decimal number: no digit follows a leading zero. -/
def whole? : List Char → Option (List Char × List Char)
  | '0' :: rest => some (['0'], rest)
  | text => digits? isDecimal text

def fraction : List Char → List Char × List Char
  | '.' :: rest => (digits? isDecimal rest).getD ([], '.' :: rest)
  | text => ([], text)

def exponent : List Char → Option Int × List Char
  | [] => (none, [])
  | e :: rest =>
      if e = 'e' ∨ e = 'E' then
        let (isNegative, behind) := sign rest
        match digits? isDecimal behind with
        | none => (none, e :: rest)
        | some (digits, rest) =>
            let size : Int := spelled 10 digits
            (some (if isNegative then -size else size), rest)
      else (none, e :: rest)

/-- A number in decimal notation: its sign, the digits of its whole part and of
its fraction, and its exponent. -/
structure DecimalForm where
  isNegative : Bool
  whole : List Char
  places : List Char
  power : Option Int
  deriving DecidableEq, Inhabited

def decimalForm? (text : List Char) : Option (DecimalForm × List Char) :=
  let (isNegative, rest) := sign text
  (whole? rest).map fun (whole, rest) =>
    let (places, rest) := fraction rest
    let (power, rest) := exponent rest
    (⟨isNegative, whole, places, power⟩, rest)

/-- The number of that form: an integer if it has neither a fraction nor an
exponent. -/
def DecimalForm.number (form : DecimalForm) : Except Fault Data :=
  if form.places.isEmpty ∧ form.power.isNone then
    if Data.digitBound < form.whole.length then .error .oversizedInteger
    else
      let n : Int := spelled 10 form.whole
      .ok (.int (if form.isNegative then -n else n))
  else
    let digits := spelled 10 (form.whole ++ form.places)
    let x := Decimal.toFloat ⟨digits, form.power.getD 0 - form.places.length⟩
    .ok (.float (if form.isNegative then -x else x))

def specialFloat? (text : List Char) : Option (Data × List Char) :=
  let (isNegative, rest) := sign text
  let infinite : Float := 1.0 / 0.0
  match rest with
  | 'i' :: 'n' :: 'f' :: rest => some (.float (if isNegative then -infinite else infinite), rest)
  | 'n' :: 'a' :: 'n' :: rest => some (.float (0.0 / 0.0), rest)
  | _ => none

/-! ## Dates and times -/

/-- The number that exactly `count` digits in front spell, if it is in range. -/
def fixed? (count low high : Nat) (text : List Char) : Option (Nat × List Char) :=
  let digits := text.take count
  let n := spelled 10 digits
  if digits.length = count ∧ digits.all isDecimal ∧ low ≤ n ∧ n ≤ high then
    some (n, text.drop count)
  else none

/-- The text behind the character, if it stands in front. -/
def behind? (wanted : Char) : List Char → Option (List Char)
  | c :: rest => if c = wanted then some rest else none
  | [] => none

/-- The microseconds of a fraction of a second, if one follows; further digits
are dropped. -/
def micros : List Char → Nat × List Char
  | '.' :: rest =>
      let digits := rest.takeWhile isDecimal
      if digits.isEmpty then (0, '.' :: rest)
      else
        let kept := digits.take 6
        (spelled 10 kept * Nat.pow 10 (6 - kept.length), rest.drop digits.length)
  | text => (0, text)

def time? (text : List Char) : Option (TimeOfDay × List Char) := do
  let (hour, text) ← fixed? 2 0 23 text
  let (minute, text) ← fixed? 2 0 59 (← behind? ':' text)
  let (second, text) ← fixed? 2 0 59 (← behind? ':' text)
  let (micro, text) := micros text
  some (⟨hour, minute, second, micro⟩, text)

/-- A distance from universal time, in minutes. -/
def zone? : List Char → Option (Int × List Char)
  | 'Z' :: rest | 'z' :: rest => some (0, rest)
  | c :: rest =>
      if c = '+' ∨ c = '-' then do
        let (hours, text) ← fixed? 2 0 23 rest
        let (minutes, text) ← fixed? 2 0 59 (← behind? ':' text)
        let size : Int := hours * 60 + minutes
        some (if c = '-' then -size else size, text)
      else none
  | [] => none

def date? (text : List Char) : Option (Date × List Char) := do
  let (year, text) ← fixed? 4 0 9999 text
  let (month, text) ← fixed? 2 1 12 (← behind? '-' text)
  let (day, text) ← fixed? 2 1 31 (← behind? '-' text)
  some (⟨year, month, day⟩, text)

def timeBehindDate? : List Char → Option (TimeOfDay × List Char)
  | c :: rest => if c = 'T' ∨ c = 't' ∨ c = ' ' then time? rest else none
  | [] => none

def dateTime (date : Date) (text : List Char) : Data × List Char :=
  match timeBehindDate? text with
  | none => (.date date, text)
  | some (time, text) =>
      match zone? text with
      | none => (.dateTime date time none, text)
      | some (zone, text) => (.dateTime date time (some zone), text)

def number (text : List Char) : Except Fault (Data × List Char) :=
  match basedInteger? text, decimalForm? text with
  | some found, _ => .ok found
  | none, some (form, rest) => form.number.map (·, rest)
  | none, none => required (specialFloat? text)

/-- A number, a date or a time. -/
def scalar (text : List Char) : Except Fault (Data × List Char) :=
  match date? text with
  | some (date, rest) =>
      if date.isValid then .ok (dateTime date rest) else .error .malformed
  | none =>
      match time? text with
      | some (time, rest) => .ok (.time time, rest)
      | none => number text

end SchemaAssist.Toml
