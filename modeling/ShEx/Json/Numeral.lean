import ShEx.Json.Basic

/-!
# Numbers of a JSON text

A number is written as an integer part, possibly with a fraction and an exponent.  Written with an
integer part alone it is an integer, as far as 64 bits hold it; every other number is a double.

The double is the one that a fixed procedure gives, not always the nearest one.  As many leading
digits as 64 bits hold are taken for an integer, which is rounded to a double; that is multiplied
or divided by the power of ten, itself rounded to a double, and the result is rounded once more.
-/

set_option autoImplicit false

namespace ShEx.Json

open ShEx.Number

/-- A number as it is written. -/
structure Numeral where
  negative : Bool
  integer : List Char
  fraction : Option (List Char)
  /-- The sign and the digits of the exponent. -/
  exponent : Option (Bool × List Char)
deriving DecidableEq

/-- The largest integer that 64 bits hold without a sign. -/
def maxUnsigned : Nat := twoTo 64 - 1

/-- Reads digits behind a number as long as 64 bits hold it, and gives it with the digits left. -/
def gather (n : Nat) : List Char → Nat × List Char
  | [] => (n, [])
  | c :: rest =>
    if maxUnsigned < 10 * n + digitValue c then (n, c :: rest)
    else gather (10 * n + digitValue c) rest

/-- The largest power of ten that one multiplication or division takes. -/
def maxPower : Nat := 308

/-- A number times a power of ten. -/
def timesPowerOfTen (b : Binary) (k : Nat) : Binary :=
  match b, Format.double.round false (tenTo k) 1 with
  | .finite negative m e, .finite _ n f =>
    Format.double.round negative (m * n * twoTo (e + f).toNat) (twoTo (-(e + f)).toNat)
  | b, _ => b

/-- A number divided by a power of ten. -/
def overPowerOfTen (b : Binary) (k : Nat) : Binary :=
  match b, Format.double.round false (tenTo k) 1 with
  | .finite negative m e, .finite _ n f =>
    Format.double.round negative (m * twoTo (e - f).toNat) (n * twoTo (f - e).toNat)
  | b, _ => b

/-- Is the number a zero? -/
def isZero : Binary → Bool
  | .finite _ 0 _ => true
  | _ => false

/-- The number, unless it is infinite. -/
def finite? : Binary → Option Binary
  | .finite negative m e => some (.finite negative m e)
  | _ => none

/-- A number moved by a power of ten, if the result is not too large.  A power below the largest
one that a division takes is taken in several steps. -/
def scaled? (b : Binary) (power : Int) : Option Binary :=
  if isZero b then some b
  else if (maxPower : Int) < power then none
  else if 0 ≤ power then finite? (timesPowerOfTen b power.toNat)
  else if -(maxPower : Int) ≤ power then some (overPowerOfTen b (-power).toNat)
  else scaled? (overPowerOfTen b maxPower) (power + maxPower)
termination_by (-power).toNat
decreasing_by simp only [maxPower] at *; omega

/-- The number with its sign turned if the flag is set. -/
def negatedIf (negative : Bool) : Binary → Binary
  | .finite s m e => .finite (s != negative) m e
  | .infinity s => .infinity (s != negative)
  | .nan => .nan

/-- The double of an unsigned integer times a power of ten, with a sign. -/
def floating? (negative : Bool) (n : Nat) (power : Int) : Option Json :=
  (scaled? (Format.double.round false n 1) power).map fun b => .float (negatedIf negative b)

/-- The value of an exponent; none is zero. -/
def exponentValue : Option (Bool × List Char) → Int
  | none => 0
  | some (negative, digits) => signed negative (digitsValue digits)

/-- The value of an integer that 64 bits hold without its sign.  Below the negative ones that they
hold with a sign it is a double, and so is the negative zero. -/
def integerValue? (negative : Bool) (n : Nat) : Option Json :=
  if !negative then some (.integer n)
  else if n = 0 || twoTo 63 < n then floating? true n 0
  else some (.integer (-n))

/-- The value of a number, if it is not too large. -/
def Numeral.value? (n : Numeral) : Option Json :=
  let (leading, dropped) := gather 0 n.integer
  match n.fraction, n.exponent, dropped with
  | none, none, [] => integerValue? n.negative leading
  | _, _, _ =>
    let fraction := n.fraction.getD []
    let (significand, left) := gather leading fraction
    let places := fraction.length - left.length
    floating? n.negative significand (exponentValue n.exponent + dropped.length - places)

/-! ## Writing -/

/-- Digits with a point behind the first one, if there are more. -/
def pointed : List Char → List Char
  | [] => []
  | [c] => [c]
  | c :: rest => c :: '.' :: rest

/-- The written form of `n · 10 ^ k`: with a point and at least one digit behind it if the first
digit stands at most five places behind the point or sixteen before it, else with an exponent. -/
def floatingText (n : Nat) (k : Int) : List Char :=
  let digits := Nat.toDigits 10 n
  let e := k + (digits.length - 1 : Nat)
  if -5 ≤ e && e < 16 then
    if 0 ≤ k then Binary.plainText n k ++ ['.', '0'] else Binary.plainText n k
  else pointed digits ++ 'e' :: (integerText e).toList

/-- The written form of a number, for a double the fewest digits that read back, a tie going to the
even digit. -/
def numberText? : Json → Option String
  | .integer i => some (integerText i)
  | .float (.finite negative m e) =>
    let body :=
      if m = 0 then ['0', '.', '0']
      else
        let (n, k) := Binary.shortestDigits .double .even m e
        floatingText n k
    some (String.ofList ((if negative then ['-'] else []) ++ body))
  | _ => none

end ShEx.Json
