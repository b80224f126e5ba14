import ShEx.Number.Binary
import ShEx.Datatype.Lexical

/-!
# Numbers in constraints

A bound in a schema and the value of a numeric literal are decimals, floats or doubles.  Two
decimals are compared exactly; any other pair is compared as doubles, where `NaN` is comparable
with nothing.
-/

set_option autoImplicit false

namespace ShEx.Datatype

open ShEx.Number

/-- A number with the representation it was read in. -/
inductive NumericLiteral where
  | decimal (value : Decimal)
  | float (value : Binary)
  | double (value : Binary)
deriving DecidableEq

namespace NumericLiteral

/-- The number as a double.  A float is one already. -/
def toDouble : NumericLiteral → Binary
  | .decimal d => d.toDouble
  | .float b => b
  | .double b => b

/-- The order of two numbers, `none` if they are not comparable. -/
def compare? : NumericLiteral → NumericLiteral → Option Ordering
  | .decimal a, .decimal b => some (compare a.scaled b.scaled)
  | a, b => a.toDouble.compare? b.toDouble

/-- Equality of numbers of one representation; numbers of different representations differ. -/
def equal : NumericLiteral → NumericLiteral → Bool
  | .decimal a, .decimal b => a = b
  | .float a, .float b => a.equal b
  | .double a, .double b => a.equal b
  | _, _ => false

/-- The written form of a number. -/
def text : NumericLiteral → String
  | .decimal d => d.text
  | .float b => b.text .single
  | .double b => b.text .double

/-- Reads a number: a decimal if it is written as one and can be held as one, else a double. -/
def parse? (text : String) : Option NumericLiteral :=
  let cs := text.toList
  match (if isDecimal cs then Decimal.parse? cs else none) with
  | some d => some (.decimal d)
  | none => if isDouble cs then (Binary.parse? .double cs).map .double else none

/-- The report on a text that is no number. -/
def refusal (text : String) : String := "Invalid numeric literal '" ++ text ++ "'"

end NumericLiteral

end ShEx.Datatype
