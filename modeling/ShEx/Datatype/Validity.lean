import ShEx.Datatype.Numeric
import ShEx.Datatype.Calendar

/-!
# Validity of literals

A literal is checked against its datatype if that is numeric, a Boolean, a date or a time; of any
other datatype every lexical form is valid.
-/

set_option autoImplicit false

namespace ShEx.Datatype

open ShEx.Rdf

/-- The lexical forms of `xsd:boolean`. -/
def booleans : List String := ["true", "false", "1", "0"]

/-- Is the lexical form of a literal one of its datatype? -/
def isValid (literal : Literal) : Bool :=
  let text := literal.lexical.toList
  match numericDatatype? literal.datatype with
  | some d => d.isLexical text
  | none =>
    if literal.datatype = Vocabulary.xsd "boolean" then booleans.contains literal.lexical
    else if literal.datatype = Vocabulary.xsd "dateTime" then Calendar.isDateTime text
    else if literal.datatype = Vocabulary.xsd "date" then Calendar.isDate text
    else if literal.datatype = Vocabulary.xsd "time" then Calendar.isTime text
    else true

end ShEx.Datatype
