/-
# SchemaAssist.Decimal.Shortest — the fewest digits that read back

A floating-point number is shown with the fewest significant digits that read
back as the same number, and with the nearest of those if there are several; an
exact tie goes to the even digit.  The search runs over exact fractions: for one
digit, two digits and so on, the two neighbours of the number on the decimal
grid are tested against the interval of reals that round to it.

Numbers from `1e-4` on and below `1e16` are written positionally, with at least
one decimal; all others with an exponent of at least two digits and its sign.
-/

namespace SchemaAssist.Decimal

set_option autoImplicit false

/-! ## Floating-point numbers as fractions -/

structure Fraction where
  num : Nat
  den : Nat
  deriving Inhabited

namespace Fraction

/-- The fraction `m · 2 ^ e`. -/
def ofBinary (m : Nat) (e : Int) : Fraction := ⟨m * Nat.pow 2 e.toNat, Nat.pow 2 (-e).toNat⟩

/-- The fraction `m · 10 ^ e`. -/
def ofDecimal (m : Nat) (e : Int) : Fraction := ⟨m * Nat.pow 10 e.toNat, Nat.pow 10 (-e).toNat⟩

def isBelow (x y : Fraction) : Bool := decide (x.num * y.den < y.num * x.den)

def isAtMost (x y : Fraction) : Bool := !y.isBelow x

end Fraction

/-- A positive finite number `mantissa · 2 ^ exponent`.  `isPower` says that the
next smaller number is only half as far away as the next larger one. -/
structure Binary where
  mantissa : Nat
  exponent : Int
  isPower : Bool
  deriving Inhabited

namespace Binary

def value (x : Binary) : Fraction := .ofBinary x.mantissa x.exponent

/-- The lower end of the reals that round to the number. -/
def low (x : Binary) : Fraction :=
  if x.isPower then .ofBinary (4 * x.mantissa - 1) (x.exponent - 2)
  else .ofBinary (2 * x.mantissa - 1) (x.exponent - 1)

/-- The upper end of the reals that round to the number. -/
def high (x : Binary) : Fraction := .ofBinary (2 * x.mantissa + 1) (x.exponent - 1)

/-- Whether a fraction rounds to the number.  The ends of the interval do if the
mantissa is even. -/
def isNear (x : Binary) (y : Fraction) : Bool :=
  if x.mantissa % 2 == 0 then x.low.isAtMost y && y.isAtMost x.high
  else x.low.isBelow y && y.isBelow x.high

def ofBits (mantissaBits exponentBits : Nat) : Binary :=
  if exponentBits = 0 then ⟨mantissaBits, -1074, false⟩
  else ⟨0x10000000000000 + mantissaBits, (exponentBits : Int) - 1075,
    mantissaBits == 0 && decide (1 < exponentBits)⟩

end Binary

/-! ## Decimals -/

/-- The decimal `digits · 10 ^ exponent`. -/
structure Scientific where
  digits : Nat
  exponent : Int
  deriving DecidableEq, Inhabited

/-- The exponent of the leading decimal digit. -/
def leadingExponent (x : Fraction) : Int :=
  let isBelowNext (k : Nat) : Bool := x.isBelow (.ofDecimal 1 ((k : Int) - 323))
  (((List.range 640).find? isBelowNext).getD 0 : Nat) - 324

/-- The better of the two neighbours of the number on the grid of multiples of
`10 ^ exponent`, if one of them reads back as the number. -/
def onGrid? (x : Binary) (exponent : Int) : Option Scientific :=
  let scaled : Fraction :=
    ⟨x.value.num * Nat.pow 10 (-exponent).toNat, x.value.den * Nat.pow 10 exponent.toNat⟩
  let below := scaled.num / scaled.den
  let twiceRest := 2 * (scaled.num % scaled.den)
  let takesBelow :=
    decide (twiceRest < scaled.den) || (twiceRest == scaled.den && below % 2 == 0)
  let order := if takesBelow then [below, below + 1] else [below + 1, below]
  (order.find? fun digits => x.isNear (.ofDecimal digits exponent)).map (⟨·, exponent⟩)

/-- The decimal with the fewest digits that reads back as the number. -/
def shortest (x : Binary) : Scientific :=
  let leading := leadingExponent x.value
  let grids := (List.range 17).map fun (fewer : Nat) => leading - (fewer : Int)
  (grids.findSome? (onGrid? x)).getD ⟨0, 0⟩

/-! ## Text -/

/-- The digits without zeros at the end, and the exponent of the first digit. -/
def significand (x : Scientific) : List Char × Int :=
  let digits := (toString x.digits).toList
  let shown := (digits.reverse.dropWhile (· == '0')).reverse
  (shown, x.exponent + digits.length - 1)

/-- The decimal places of a number below one and the like, where `digits` starts
at the exponent `leading`. -/
def positional (digits : List Char) (leading : Int) : List Char :=
  if leading < 0 then
    '0' :: '.' :: (List.replicate (-leading - 1).toNat '0' ++ digits)
  else
    let whole := leading.toNat + 1
    let padded := digits ++ List.replicate (whole - digits.length) '0'
    let places := padded.drop whole
    padded.take whole ++ '.' :: (if places.isEmpty then ['0'] else places)

def exponential (digits : List Char) (leading : Int) : List Char :=
  let places := digits.drop 1
  let size := (toString leading.natAbs).toList
  digits.take 1 ++ (if places.isEmpty then [] else '.' :: places) ++
    'e' :: (if leading < 0 then '-' else '+') ::
      (if size.length < 2 then '0' :: size else size)

def text (x : Float) : String :=
  let bits := x.toBits.toNat
  let sign := if bits / 0x8000000000000000 = 1 then "-" else ""
  let exponentBits := bits / 0x10000000000000 % 0x800
  let mantissaBits := bits % 0x10000000000000
  if exponentBits = 2047 then if mantissaBits = 0 then sign ++ "inf" else "nan"
  else if exponentBits = 0 ∧ mantissaBits = 0 then sign ++ "0.0"
  else
    let (digits, leading) := significand (shortest (.ofBits mantissaBits exponentBits))
    sign ++ String.ofList
      (if -4 ≤ leading ∧ leading < 16 then positional digits leading
       else exponential digits leading)

/-- The floating-point number nearest to a decimal.  Beyond the range of
floating-point numbers it is zero or infinite, without the power of ten being
computed. -/
def toFloat (x : Scientific) : Float :=
  let size : Int := x.exponent + (toString x.digits).length
  if x.digits = 0 ∨ size < -400 then 0.0
  else if 400 < size then 1.0 / 0.0
  else if x.exponent < 0 then Float.ofScientific x.digits true (-x.exponent).toNat
  else Float.ofScientific x.digits false x.exponent.toNat

end SchemaAssist.Decimal
