import ShEx.Rdf.Term
import ShEx.Datatype.NumericLiteral

/-!
# Node constraints

A node constraint speaks about a node alone, whatever arcs it has: its kind, its datatype, facets
of its string and of its number, and the set of values it is taken from.  This module holds what
such a constraint says; `Validation.NodeEvaluation` decides whether a node has it.

A constraint that belongs to a schema carries a number that no other constraint of the schema
has, so that answers about it can be remembered.  The number is not part of what it says:
`equal` leaves it out.
-/

set_option autoImplicit false

namespace ShEx

open ShEx.Rdf ShEx.Datatype

/-- The kinds of nodes a constraint can ask for. -/
inductive NodeKind where
  | iri
  | blankNode
  | literal
  | nonLiteral
deriving DecidableEq

namespace NodeKind

/-- Is the term of the kind? -/
def contains : NodeKind → Term → Bool
  | .iri, .iri _ => true
  | .blankNode, .blank _ => true
  | .literal, .literal _ => true
  | .nonLiteral, .iri _ => true
  | .nonLiteral, .blank _ => true
  | _, _ => false

/-- The name of the kind in the compact syntax of shape expressions. -/
def text : NodeKind → String
  | .iri => "IRI"
  | .blankNode => "BNODE"
  | .literal => "LITERAL"
  | .nonLiteral => "NONLITERAL"

end NodeKind

/-- A regular expression as it is given: its text and its flags. -/
structure PatternFacet where
  pattern : String
  flags : Option String
deriving DecidableEq, Inhabited

/-- A facet of the string of a node, the text of an IRI or the lexical form of a literal. -/
inductive StringFacet where
  | length (n : Nat)
  | minLength (n : Nat)
  | maxLength (n : Nat)
  | pattern (facet : PatternFacet)
deriving DecidableEq

/-- A facet of the number that a literal denotes. -/
inductive NumericFacet where
  | minInclusive (bound : NumericLiteral)
  | minExclusive (bound : NumericLiteral)
  | maxInclusive (bound : NumericLiteral)
  | maxExclusive (bound : NumericLiteral)
  | totalDigits (n : Nat)
  | fractionDigits (n : Nat)
deriving DecidableEq

/-- What is taken out of a stem range: one value, or all values with a stem. -/
inductive StemExclusion where
  | value (text : String)
  | stem (text : String)
deriving DecidableEq

/-- An entry of a value set. -/
inductive ValueSetValue where
  | term (term : Term)
  | iriStem (stem : String)
  | iriStemRange (stem : String) (exclusions : List StemExclusion)
  | literalStem (stem : String)
  | literalStemRange (stem : String) (exclusions : List StemExclusion)
  | language (tag : String)
  | languageStem (stem : String)
  | languageStemRange (stem : String) (exclusions : List StemExclusion)
deriving DecidableEq

/-- A constraint on a node alone.  The empty list of values admits every node. -/
structure NodeConstraint where
  kind : Option NodeKind
  datatype : Option Iri
  strings : List StringFacet
  numbers : List NumericFacet
  values : List ValueSetValue
  id : Option Nat
deriving DecidableEq

/-- Equality of numeric facets, their bounds compared as numbers of one representation. -/
def NumericFacet.equal : NumericFacet → NumericFacet → Bool
  | .minInclusive a, .minInclusive b => a.equal b
  | .minExclusive a, .minExclusive b => a.equal b
  | .maxInclusive a, .maxInclusive b => a.equal b
  | .maxExclusive a, .maxExclusive b => a.equal b
  | .totalDigits m, .totalDigits n => m = n
  | .fractionDigits m, .fractionDigits n => m = n
  | _, _ => false

/-- Do two lists have the same length, and equal members in each place? -/
def pointwise {α : Type} (eq : α → α → Bool) : List α → List α → Bool
  | [], [] => true
  | a :: as, b :: bs => eq a b && pointwise eq as bs
  | _, _ => false

namespace NodeConstraint

/-- The constraint that every node satisfies. -/
def any : NodeConstraint := ⟨none, none, [], [], [], none⟩

/-- Do two constraints say the same?  Their numbers in the schema do not count. -/
def equal (a b : NodeConstraint) : Bool :=
  a.kind = b.kind && a.datatype = b.datatype && a.strings = b.strings &&
    pointwise NumericFacet.equal a.numbers b.numbers && a.values = b.values

end NodeConstraint

end ShEx
