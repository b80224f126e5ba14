import ShEx.Rdf.Term

/-!
# Why a document does not load

A schema or a shape map in JSON is refused because its text does not have the structure of one, or
because something in it means nothing: a term that is not well formed, bounds in the wrong order,
an expression in the wrong place.
-/

set_option autoImplicit false

namespace ShEx

open ShEx.Rdf

/-- What can be wrong with the place of a shape expression in a schema. -/
inductive SchemaFault where
  | bareReference (label : String)
  | unlabelled
  | misplacedDeclaration (id : String)
deriving DecidableEq

/-- The report of a fault. -/
def SchemaFault.text : SchemaFault → String
  | .bareReference label => "the shapes list contains the bare reference '" ++ label ++ "'"
  | .unlabelled => "a shape expression of the shapes list has no id"
  | .misplacedDeclaration id => "the shape declaration '" ++ id ++ "' is not in the shapes list"

/-- Why a document does not load. -/
inductive LoadError where
  /-- The text is not JSON or does not have the structure asked for. -/
  | malformed
  | invalidIri (text : String)
  | invalidBlankNode (id : String)
  | invalidLanguageTag (tag : String)
  | invalidCardinality (min max : Int)
  | invalidNumber (text : String)
  | invalidSchema (fault : SchemaFault)
  /-- A triple pattern of a shape map has no focus, or two. -/
  | focusCount (predicate : Iri)
deriving DecidableEq

/-- The report of an error. -/
def LoadError.message : LoadError → String
  | .malformed => "The document does not have the expected structure"
  | .invalidIri text => "Invalid IRI '" ++ text ++ "'"
  | .invalidBlankNode id =>
    "Invalid blank node identifier '" ++ id ++ "': The blank node identifier is invalid"
  | .invalidLanguageTag tag => "Invalid language tag '" ++ tag ++ "'"
  | .invalidCardinality min max =>
    "Invalid cardinality: min=" ++ toString min ++ ", max=" ++ toString max
  | .invalidNumber text => "Invalid numeric value '" ++ text ++ "'"
  | .invalidSchema fault => "Invalid ShExJ schema: " ++ fault.text
  | .focusCount predicate =>
    "Invalid shape map: the triple pattern on " ++ predicate.written ++
      " must contain FOCUS exactly once"

end ShEx
