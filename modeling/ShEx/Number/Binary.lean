import ShEx.Number.Decimal

/-!
# Binary floating point numbers

Floating point numbers are kept as sign, significand and exponent, and each operation is exact
rational arithmetic followed by one rounding to the nearest number of a format, a tie going to
the even significand.  `double` and `single` are the two formats of 64 and 32 bits; every number
of the second is one of the first.

`parse?` reads decimal text, `compare?` is the order with `NaN` beside it, and `text` writes the
fewest digits that read back to the same number, never with an exponent.  Of two numbers with the
fewest digits the nearer one is written; between two that are equally near a `Tie` decides.
-/

set_option autoImplicit false

namespace ShEx.Number

/-- A format: how many bits a significand has, and between which powers of two its last bit
can stand. -/
structure Format where
  precision : Nat
  minExponent : Int
  maxExponent : Int

/-- The format of 64 bits. -/
def Format.double : Format := ⟨53, -1074, 971⟩

/-- The format of 32 bits. -/
def Format.single : Format := ⟨24, -149, 104⟩

/-- A floating point number; a finite one is `± significand · 2 ^ exponent`. -/
inductive Binary where
  | nan
  | infinity (negative : Bool)
  | finite (negative : Bool) (significand : Nat) (exponent : Int)
deriving DecidableEq, Inhabited

/-- A quotient rounded to the nearest integer, a tie going to the even one. -/
def roundedQuotient (num den : Nat) : Nat :=
  let q := num / den
  let r := num % den
  if 2 * r < den then q
  else if den < 2 * r then q + 1
  else if q % 2 = 0 then q else q + 1

/-- The exponent of the largest power of two that is at most a positive quotient. -/
def quotientLog2 (num den : Nat) : Int :=
  let guess : Int := (num.log2 : Int) - den.log2
  let reached :=
    if 0 ≤ guess then den * twoTo guess.toNat ≤ num else den ≤ num * twoTo (-guess).toNat
  if reached then guess else guess - 1

namespace Format

/-- The power of two at which the last bit of a positive quotient stands. -/
def lastBit (f : Format) (num den : Nat) : Int :=
  max f.minExponent (quotientLog2 num den - (f.precision - 1))

/-- A quotient in units of a power of two, rounded. -/
def significandAt (e : Int) (num den : Nat) : Nat :=
  if 0 ≤ e then roundedQuotient num (den * twoTo e.toNat)
  else roundedQuotient (num * twoTo (-e).toNat) den

/-- The number of the format nearest to a quotient; beyond its range there is infinity. -/
def round (f : Format) (negative : Bool) (num den : Nat) : Binary :=
  if num = 0 then .finite negative 0 f.minExponent
  else
    let e := f.lastBit num den
    let m := significandAt e num den
    let (m, e) := if m = twoTo f.precision then (twoTo (f.precision - 1), e + 1) else (m, e)
    if f.maxExponent < e then .infinity negative else .finite negative m e

/-- No format here holds a number with more digits before its point than this, other than
infinity, and none whose first digit comes so far behind the point, other than zero. -/
def decimalReach : Int := 400

/-- The number of the format nearest to `± n · 10 ^ exponent`. -/
def ofDecimal (f : Format) (negative : Bool) (n : Nat) (exponent : Int) : Binary :=
  if n = 0 then .finite negative 0 f.minExponent
  else
    let size : Int := (Nat.toDigits 10 n).length + exponent
    if decimalReach < size then .infinity negative
    else if size < -decimalReach then .finite negative 0 f.minExponent
    else if 0 ≤ exponent then f.round negative (n * tenTo exponent.toNat) 1
    else f.round negative n (tenTo (-exponent).toNat)

end Format

namespace Binary

/-- The value of a finite number. -/
def magnitude (significand : Nat) (exponent : Int) : Rat :=
  if 0 ≤ exponent then ((significand * twoTo exponent.toNat : Nat) : Rat)
  else mkRat significand (twoTo (-exponent).toNat)

/-- The exact value of a finite number. -/
def toRat? : Binary → Option Rat
  | .finite negative m e => some (if negative then -magnitude m e else magnitude m e)
  | _ => none

/-- The order of two rational numbers. -/
def compareRat (a b : Rat) : Ordering := if a < b then .lt else if b < a then .gt else .eq

/-- The order of two numbers; `NaN` is comparable with nothing, and the two zeros are equal. -/
def compare? : Binary → Binary → Option Ordering
  | .nan, _ => none
  | _, .nan => none
  | .infinity a, .infinity b => some (if a = b then .eq else if a then .lt else .gt)
  | .infinity a, .finite .. => some (if a then .lt else .gt)
  | .finite .., .infinity b => some (if b then .gt else .lt)
  | .finite a m e, .finite b n f =>
    some (compareRat (if a then -magnitude m e else magnitude m e)
      (if b then -magnitude n f else magnitude n f))

/-- Numerical equality, which `NaN` does not have even with itself. -/
def equal (a b : Binary) : Bool := a.compare? b = some .eq

/-! ## Reading -/

/-- The exponent part of a number: nothing, or a mark with an integer behind it. -/
def exponent? : Option (List Char) → Option Int
  | none => some 0
  | some text =>
    let (negative, digits) := splitSign text
    if !digits.isEmpty && digits.all Char.isDigit then some (signed negative (digitsValue digits))
    else none

/-- A name of a number without digits, in lower case. -/
def named? (negative : Bool) (name : List Char) : Option Binary :=
  if name = "inf".toList || name = "infinity".toList then some (.infinity negative)
  else if name = "nan".toList then some .nan
  else none

/-- Reads a number: a sign, digits with or without a point, and an exponent; or `inf`,
`infinity` or `nan` in any case. -/
def parse? (f : Format) (text : List Char) : Option Binary :=
  let (negative, body) := splitSign text
  match named? negative (body.map Char.toLower) with
  | some b => some b
  | none =>
    let (mantissa, power) := splitAtFirst (fun c => c = 'e' || c = 'E') body
    let (integer, rest) := splitAtFirst (· = '.') mantissa
    let fraction := rest.getD []
    match exponent? power with
    | none => none
    | some e =>
      if integer.all Char.isDigit && fraction.all Char.isDigit &&
          !(integer ++ fraction).isEmpty then
        some (f.ofDecimal negative (digitsValue (integer ++ fraction)) (e - fraction.length))
      else none

/-! ## Writing -/

/-- The distance from a number of the format to the middle between it and the next one towards
zero, in quarters of its last bit: at a power of two that neighbour is nearer. -/
def quartersBelow (f : Format) (m : Nat) (e : Int) : Nat :=
  if m = twoTo (f.precision - 1) && f.minExponent < e then 1 else 2

/-- Is `n · 10 ^ k` read back as `m · 2 ^ e`?  It is if it lies between the middles towards the
two neighbours; the middles themselves count for an even significand. -/
def readsBack (f : Format) (m : Nat) (e : Int) (n : Nat) (k : Int) : Bool :=
  let scaleTwo (x : Nat) (p : Int) : Nat := x * twoTo p.toNat
  let scaleTen (x : Nat) (p : Int) : Nat := x * tenTo p.toNat
  let candidate := scaleTwo (scaleTen (4 * n) k) (-e)
  let low := scaleTen (scaleTwo (4 * m - quartersBelow f m e) e) (-k)
  let high := scaleTen (scaleTwo (4 * m + 2) e) (-k)
  if m % 2 = 0 then low ≤ candidate && candidate ≤ high else low < candidate && candidate < high

/-- The distance between `n · 10 ^ k` and `m · 2 ^ e`, up to a factor that depends on the
exponents only. -/
def distance (m : Nat) (e : Int) (n : Nat) (k : Int) : Nat :=
  let a := n * tenTo k.toNat * twoTo (-e).toNat
  let b := m * twoTo e.toNat * tenTo (-k).toNat
  (a - b) + (b - a)

/-- The integer part of `m · 2 ^ e` in units of `10 ^ k`. -/
def flooredUnits (m : Nat) (e k : Int) : Nat :=
  (m * twoTo e.toNat * tenTo (-k).toNat) / (twoTo (-e).toNat * tenTo k.toNat)

/-- Which of two neighbours is written if a number is in the middle between them. -/
inductive Tie where
  /-- The larger one. -/
  | up
  /-- The one with an even last digit. -/
  | even
deriving DecidableEq

/-- The number, or the next one if the tie is decided so. -/
def Tie.choose (tie : Tie) (below : Nat) : Nat :=
  if tie = .even && below % 2 = 0 then below else below + 1

/-- The multiple of `10 ^ k` that reads back as `m · 2 ^ e`, the nearer one if two neighbours
do. -/
def unitsReadBack? (f : Format) (tie : Tie) (m : Nat) (e k : Int) : Option Nat :=
  let below := flooredUnits m e k
  let above := below + 1
  match readsBack f m e below k && below != 0, readsBack f m e above k with
  | true, true =>
    match compare (distance m e below k) (distance m e above k) with
    | .lt => some below
    | .eq => some (tie.choose below)
    | .gt => some above
  | true, false => some below
  | false, true => some above
  | false, false => none

/-- Searches the coarsest decimal grid with a number that reads back, from `10 ^ k` down, on so
many grids. -/
def shortest (f : Format) (tie : Tie) (m : Nat) (e : Int) : Nat → Int → Nat × Int
  | 0, k => (flooredUnits m e k, k)
  | steps + 1, k =>
    match unitsReadBack? f tie m e k with
    | some n => (n, k)
    | none => shortest f tie m e steps (k - 1)

/-- An upper bound of the decimal exponent of `m · 2 ^ e`. -/
def decimalExponentBound (m : Nat) (e : Int) : Int :=
  if 0 ≤ e then (Nat.toDigits 10 (m * twoTo e.toNat)).length
  else
    let integer := m / twoTo (-e).toNat
    if integer = 0 then 1 - ((Nat.toDigits 10 (twoTo (-e).toNat / m)).length - 1 : Nat)
    else (Nat.toDigits 10 integer).length

/-- The fewest decimal digits that read back to a positive number, as an integer and a power of
ten. -/
def shortestDigits (f : Format) (tie : Tie) (m : Nat) (e : Int) : Nat × Int :=
  shortest f tie m e 20 (decimalExponentBound m e)

/-- A decimal number written without exponent. -/
def plainText (n : Nat) (k : Int) : List Char :=
  let digits := Nat.toDigits 10 n
  if 0 ≤ k then (if n = 0 then ['0'] else digits ++ List.replicate k.toNat '0')
  else
    let places := (-k).toNat
    let padded := List.replicate (places + 1 - digits.length) '0' ++ digits
    padded.take (padded.length - places) ++ '.' :: padded.drop (padded.length - places)

/-- The written form: `NaN`, `INF`, `-INF`, or the fewest digits that read back, a tie going up. -/
def text (f : Format) : Binary → String
  | .nan => "NaN"
  | .infinity negative => if negative then "-INF" else "INF"
  | .finite negative m e =>
    let body :=
      if m = 0 then ['0']
      else
        let (n, k) := shortestDigits f .up m e
        plainText n k
    String.ofList ((if negative then ['-'] else []) ++ body)

end Binary

namespace Decimal

/-- The double nearest to a decimal number, up to two roundings: common factors of ten are
removed, the number of units is rounded to a double, and the quotient by the remaining power of
ten is rounded again. -/
def toDouble (d : Decimal) : Binary :=
  let (k, n) := if d.scaled = 0 then (places, 0) else reduce places d.scaled
  match Format.double.round (n < 0) n.natAbs 1 with
  | .finite negative m e =>
    if 0 ≤ e then Format.double.round negative (m * twoTo e.toNat) (tenTo k)
    else Format.double.round negative m (twoTo (-e).toNat * tenTo k)
  | other => other

end Decimal

end ShEx.Number
