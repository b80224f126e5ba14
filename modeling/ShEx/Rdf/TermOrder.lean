import ShEx.Rdf.Graph

/-!
# The order of terms

Terms are ordered by kind: IRIs, blank nodes whose identifier is a number, other blank nodes,
plain strings, literals with a language tag, other literals; inside a kind by their text.  A
graph lists its triples in this order, those with one subject by predicate and object, those with
one object by subject and predicate, those with one predicate by object and subject.
-/

set_option autoImplicit false

namespace ShEx.Rdf

/-- Where a term stands: its kind, the length of its text as far as that counts, the text, and the
datatype or language tag of a literal. -/
structure TermKey where
  kind : Nat
  length : Nat
  text : String
  qualifier : String
deriving DecidableEq, Ord

/-- Is the identifier of a blank node a number, in lower case hexadecimal digits that do not begin
with a zero and fit 128 bits?  Such numbers are compared by their length first. -/
def BlankNode.isNumbered (b : BlankNode) : Bool :=
  let digits := b.id.toList
  !digits.isEmpty && digits.head? != some '0' && digits.length ≤ 32 &&
    digits.all fun c => c.isDigit || ('a' ≤ c && c ≤ 'f')

/-- The key of a blank node. -/
def BlankNode.key (b : BlankNode) : TermKey :=
  if b.isNumbered then ⟨1, b.id.length, b.id, ""⟩ else ⟨2, 0, b.id, ""⟩

/-- The key of a literal. -/
def Literal.key : Literal → TermKey
  | .typed lexical datatype =>
    if datatype = Vocabulary.xsdString then ⟨3, 0, lexical, ""⟩
    else ⟨5, 0, lexical, datatype.text⟩
  | .tagged lexical language => ⟨4, 0, lexical, language⟩

/-- The key of a term. -/
def Term.key : Term → TermKey
  | .iri i => ⟨0, 0, i.text, ""⟩
  | .blank b => b.key
  | .literal l => l.key

namespace Triple

/-- Does a triple come before another one, or with it, by predicate and then object? -/
def byPredicate (s t : Triple) : Bool :=
  ((compare s.predicate.text t.predicate.text).then (compare s.object.key t.object.key)).isLE

/-- Does a triple come before another one, or with it, by subject and then predicate? -/
def bySubject (s t : Triple) : Bool :=
  ((compare s.subject.toTerm.key t.subject.toTerm.key).then
    (compare s.predicate.text t.predicate.text)).isLE

/-- Does a triple come before another one, or with it, by object and then subject? -/
def byObject (s t : Triple) : Bool :=
  ((compare s.object.key t.object.key).then
    (compare s.subject.toTerm.key t.subject.toTerm.key)).isLE

end Triple

/-- The listing that follows the order of terms. -/
def Graph.inTermOrder (g : Graph) : g.Listing where
  outgoing s := (g.withSubject s).mergeSort Triple.byPredicate
  incoming o := (g.withObject o).mergeSort Triple.bySubject
  along p := (g.withPredicate p).mergeSort Triple.byObject
  outgoing_perm _ := List.mergeSort_perm _ _
  incoming_perm _ := List.mergeSort_perm _ _
  along_perm _ := List.mergeSort_perm _ _

end ShEx.Rdf
