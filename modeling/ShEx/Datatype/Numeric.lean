import ShEx.Rdf.Term
import ShEx.Datatype.NumericLiteral

/-!
# The numeric datatypes

Sixteen XML Schema datatypes are numeric.  Each belongs to a family, which fixes its grammar,
and those derived from `xsd:integer` have bounds.  A lexical form is valid if it follows the
grammar and denotes a number within the bounds, however many digits it has: an integer that does not
fit in 128 bits is beyond every bound there is on its side.

`digitCounts?` gives the total and the fraction digits of a number that `xsd:totalDigits` and
`xsd:fractionDigits` speak about.
-/

set_option autoImplicit false

namespace ShEx.Datatype

open ShEx.Number ShEx.Rdf

/-- The families of numeric datatypes. -/
inductive Family where
  | integer
  | decimal
  | float
  | double
deriving DecidableEq

/-- A numeric datatype with its inclusive bounds. -/
structure NumericDatatype where
  iri : Iri
  family : Family
  min : Option Int
  max : Option Int

/-- The numeric datatypes. -/
def numericDatatypes : List NumericDatatype :=
  [⟨Vocabulary.xsd "integer", .integer, none, none⟩,
    ⟨Vocabulary.xsd "decimal", .decimal, none, none⟩,
    ⟨Vocabulary.xsd "float", .float, none, none⟩,
    ⟨Vocabulary.xsd "double", .double, none, none⟩,
    ⟨Vocabulary.xsd "nonPositiveInteger", .integer, none, some 0⟩,
    ⟨Vocabulary.xsd "negativeInteger", .integer, none, some (-1)⟩,
    ⟨Vocabulary.xsd "long", .integer, some (-(twoTo 63)), some (twoTo 63 - 1)⟩,
    ⟨Vocabulary.xsd "int", .integer, some (-(twoTo 31)), some (twoTo 31 - 1)⟩,
    ⟨Vocabulary.xsd "short", .integer, some (-(twoTo 15)), some (twoTo 15 - 1)⟩,
    ⟨Vocabulary.xsd "byte", .integer, some (-(twoTo 7)), some (twoTo 7 - 1)⟩,
    ⟨Vocabulary.xsd "nonNegativeInteger", .integer, some 0, none⟩,
    ⟨Vocabulary.xsd "unsignedLong", .integer, some 0, some (twoTo 64 - 1)⟩,
    ⟨Vocabulary.xsd "unsignedInt", .integer, some 0, some (twoTo 32 - 1)⟩,
    ⟨Vocabulary.xsd "unsignedShort", .integer, some 0, some (twoTo 16 - 1)⟩,
    ⟨Vocabulary.xsd "unsignedByte", .integer, some 0, some (twoTo 8 - 1)⟩,
    ⟨Vocabulary.xsd "positiveInteger", .integer, some 1, none⟩]

/-- The numeric datatype with an IRI. -/
def numericDatatype? (iri : Iri) : Option NumericDatatype :=
  numericDatatypes.find? fun d => d.iri = iri

/-- Is the datatype numeric? -/
def isNumeric (iri : Iri) : Bool := (numericDatatype? iri).isSome

/-- The integer that an integer lexical form denotes. -/
def integerValue (text : List Char) : Int :=
  let (negative, digits) := splitSign text
  signed negative (digitsValue digits)

/-- The integer that an integer lexical form denotes, if it fits in 128 bits. -/
def wideInteger? (text : List Char) : Option Int :=
  let n := integerValue text
  if -(twoTo 127 : Int) ≤ n ∧ n < twoTo 127 then some n else none

namespace NumericDatatype

/-- Does the datatype contain the integer? -/
def contains (d : NumericDatatype) (n : Int) : Bool :=
  d.min.all (· ≤ n) && d.max.all (n ≤ ·)

/-- Does the datatype contain the integer that an integer lexical form denotes?  One that does not
fit in 128 bits is looked at by its sign only. -/
def containsWritten (d : NumericDatatype) (text : List Char) : Bool :=
  match wideInteger? text with
  | some n => d.contains n
  | none => if text.head? = some '-' then d.min.isNone else d.max.isNone

/-- Is the text a lexical form of the datatype? -/
def isLexical (d : NumericDatatype) (text : List Char) : Bool :=
  match d.family with
  | .integer => isInteger text && d.containsWritten text
  | .decimal => isDecimal text
  | .float => isDouble text
  | .double => isDouble text

/-- The number that a lexical form of the datatype denotes.  Integers and decimals that cannot
be held as decimals become doubles. -/
def value? (d : NumericDatatype) (text : List Char) : Option NumericLiteral :=
  match d.family with
  | .float => (Binary.parse? .single text).map .float
  | .double => (Binary.parse? .double text).map .double
  | _ =>
    match Decimal.parse? text with
    | some n => some (.decimal n)
    | none => (Binary.parse? .double text).map .double

end NumericDatatype

/-- The number that a literal denotes; none if its datatype is not numeric or its lexical form
not valid. -/
def parseNumeric (literal : Literal) : Option NumericLiteral :=
  match numericDatatype? literal.datatype with
  | none => none
  | some d =>
    let text := literal.lexical.toList
    if d.isLexical text then d.value? text else none

/-- The total and the fraction digits of a written number: zeros at the two ends do not count,
and there is always one digit at least. -/
def writtenDigits (text : List Char) : Nat × Nat :=
  let (integer, rest) := splitAtFirst (· = '.') (unsigned text)
  let integer := integer.dropWhile (· = '0')
  let fraction := dropTrailing '0' (rest.getD [])
  (max (integer.length + fraction.length) 1, fraction.length)

/-- The total and the fraction digits of a valid integer or decimal literal. -/
def digitCounts? (literal : Literal) : Option (Nat × Nat) :=
  match numericDatatype? literal.datatype with
  | none => none
  | some d =>
    let text := literal.lexical.toList
    if (d.family = .integer || d.family = .decimal) && d.isLexical text then
      some (writtenDigits text)
    else none

end ShEx.Datatype
