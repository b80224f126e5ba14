import ShEx.Number.Digits

/-!
# Decimal numbers

A decimal number is an integer multiple of `10⁻¹⁸` whose multiple fits in 128 bits with sign.
Reading is exact: a text whose value is no such number is refused, whatever the way it is
written, and the written form has neither superfluous zeros nor a minus sign at zero.
-/

set_option autoImplicit false

namespace ShEx.Number

/-- How many fraction digits a decimal number can have. -/
def Decimal.places : Nat := 18

/-- The number of units in one. -/
def Decimal.unit : Nat := tenTo Decimal.places

/-- A decimal number: `scaled` units of `10⁻¹⁸`. -/
structure Decimal where
  scaled : Int
  lower : -(twoTo 127) ≤ scaled
  upper : scaled < twoTo 127
deriving DecidableEq

namespace Decimal

/-- The decimal number of so many units, if it is in range. -/
def ofScaled? (n : Int) : Option Decimal :=
  if h : -(twoTo 127) ≤ n ∧ n < twoTo 127 then some ⟨n, h.1, h.2⟩ else none

/-- The exact value. -/
def toRat (d : Decimal) : Rat := mkRat d.scaled unit

/-- The decimal number of a sign, integer digits and fraction digits: the zeros at the end of
the fraction do not count, and more than eighteen other digits cannot be held. -/
def ofDigits? (negative : Bool) (integer fraction : List Char) : Option Decimal :=
  let fraction := dropTrailing '0' fraction
  if fraction.length ≤ places then
    ofScaled? <| signed negative <|
      digitsValue (integer ++ fraction) * tenTo (places - fraction.length)
  else none

/-- Reads a sign, digits and possibly a point with more digits.  Digits may be missing on one
side of the point, not on both. -/
def parse? (text : List Char) : Option Decimal :=
  let (negative, body) := splitSign text
  let (integer, rest) := splitAtFirst (· = '.') body
  let fraction := rest.getD []
  if integer.all Char.isDigit && fraction.all Char.isDigit && !(integer ++ fraction).isEmpty then
    ofDigits? negative integer fraction
  else none

/-- The fraction digits of a number of units below one: eighteen digits, less the zeros at the
end. -/
def fractionDigits (units : Nat) : List Char :=
  let digits := Nat.toDigits 10 units
  dropTrailing '0' (List.replicate (places - digits.length) '0' ++ digits)

/-- The written form: integer digits, and a point with fraction digits if there are any. -/
def text (d : Decimal) : String :=
  let magnitude := d.scaled.natAbs
  let fraction := fractionDigits (magnitude % unit)
  String.ofList <|
    (if d.scaled < 0 then ['-'] else []) ++ Nat.toDigits 10 (magnitude / unit) ++
      (if fraction.isEmpty then [] else '.' :: fraction)

/-- Removes common factors of ten from a number of units and the power of ten it is divided by,
at most so many. -/
def reduce : Nat → Int → Nat × Int
  | 0, n => (0, n)
  | k + 1, n => if n % 10 = 0 then reduce k (n / 10) else (k + 1, n)

end Decimal

end ShEx.Number
