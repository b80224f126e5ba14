/-!
# Digits and powers

Reading ASCII digits as a natural number, and the sign in front of them; the powers of two and ten
that bounds and scales are made of.
-/

set_option autoImplicit false

namespace ShEx.Number

/-- A power of two. -/
def twoTo (n : Nat) : Nat := Nat.pow 2 n

/-- A power of ten. -/
def tenTo (n : Nat) : Nat := Nat.pow 10 n

/-- The value of an ASCII digit. -/
def digitValue (c : Char) : Nat := c.toNat - '0'.toNat

/-- The number that a string of digits denotes, the first digit counting most. -/
def digitsValue (digits : List Char) : Nat :=
  digits.foldl (fun n c => 10 * n + digitValue c) 0

/-- A sign and what follows it; without a sign the text counts as positive. -/
def splitSign : List Char → Bool × List Char
  | '-' :: rest => (true, rest)
  | '+' :: rest => (false, rest)
  | text => (false, text)

/-- The text without a sign in front. -/
def unsigned (text : List Char) : List Char := (splitSign text).2

/-- The number with a sign: negative if the flag is set. -/
def signed (negative : Bool) (n : Nat) : Int := if negative then -(n : Int) else n

/-- The text of an integer: a minus sign if it is negative, and its digits. -/
def integerText (n : Int) : String := toString n

/-- The text without the run of a character at its end. -/
def dropTrailing (c : Char) (text : List Char) : List Char :=
  (text.reverse.dropWhile (· = c)).reverse

/-- The text before a character and, if the character occurs, the text after its first
occurrence. -/
def splitAtFirst (separator : Char → Bool) (text : List Char) : List Char × Option (List Char) :=
  (text.takeWhile fun c => !separator c, (text.dropWhile fun c => !separator c).tail?)

end ShEx.Number
