import ShEx.Number.Digits

/-!
# Lexical forms of numbers

The grammars that numeric literals are written in, over all characters:

* integers, `[+-]?[0-9]+`;
* decimals, `[+-]?([0-9]*\.[0-9]+|[0-9]+)`;
* doubles, a decimal with an optional exponent `[eE][+-]?[0-9]+`, or `NaN`, `INF`, `-INF`.
-/

set_option autoImplicit false

namespace ShEx.Datatype

open ShEx.Number (unsigned splitAtFirst)

/-- Only ASCII digits; the empty text counts. -/
def allDigits (text : List Char) : Bool := text.all Char.isDigit

/-- At least one digit and nothing else. -/
def isDigits (text : List Char) : Bool := !text.isEmpty && allDigits text

/-- Is the text an integer? -/
def isInteger (text : List Char) : Bool := isDigits (unsigned text)

/-- Is the text a decimal?  Behind a point there is at least one digit. -/
def isDecimal (text : List Char) : Bool :=
  match splitAtFirst (· = '.') (unsigned text) with
  | (integer, some fraction) => allDigits integer && isDigits fraction
  | (integer, none) => isDigits integer

/-- The names of the numbers that have no digits. -/
def specialNumbers : List String := ["NaN", "INF", "-INF"]

/-- The mark in front of an exponent. -/
def isExponentMark (c : Char) : Bool := c = 'e' || c = 'E'

/-- Is the text a double? -/
def isDouble (text : List Char) : Bool :=
  specialNumbers.any (·.toList = text) ||
    match splitAtFirst isExponentMark text with
    | (mantissa, some exponent) => isDecimal mantissa && isInteger exponent
    | (mantissa, none) => isDecimal mantissa

end ShEx.Datatype
