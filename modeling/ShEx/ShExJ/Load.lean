import ShEx.Schema.Basic
import ShEx.ShExJ.Decode

/-!
# Loading schemas

What a schema document means.  Its expressions are converted in the order in which they are
written, the shapes list before the start expression, and the first thing that means nothing is
the error.

A shape expression inside another one, and a triple expression anywhere, that carries an `id` is
declared under it as well.  Such expressions are met in post-order (`labelled`,
`labelledTriples`); declarations of the shapes list come behind them and so replace them.
-/

set_option autoImplicit false

namespace ShEx.ShExJ

open ShEx.Rdf ShEx.Datatype

/-! ## Parts without expressions -/

/-- The action of an entry. -/
def ActEntry.action (a : ActEntry) : Except LoadError SemanticAction := do
  pure ⟨← iri a.name, a.code⟩

/-- The largest bound of a cardinality. -/
def maxBound : Int := Number.twoTo 32 - 1

/-- The cardinality between two bounds.  A missing bound is one, and the maximum `-1` stands for no
maximum. -/
def cardinality (min max : Option Int) : Except LoadError Cardinality :=
  let lower := min.getD 1
  let upper := max.getD 1
  let invalid := .error (.invalidCardinality lower upper)
  if lower < 0 || maxBound < lower || upper < -1 || maxBound < upper then invalid
  else
    match Cardinality.between? lower.toNat (if upper = -1 then none else some upper.toNat) with
    | some c => .ok c
    | none => invalid

/-- The number of a text. -/
def number (text : String) : Except LoadError NumericLiteral :=
  match NumericLiteral.parse? text with
  | some n => .ok n
  | none => .error (.invalidNumber text)

/-- The value of an entry. -/
def ValueEntry.toValue : ValueEntry → Except LoadError ValueSetValue
  | .iri text => do pure (.term (.iri (← ShExJ.iri text)))
  | .literal l => do pure (.term (.literal (← l.toLiteral)))
  | .stem value => .ok value

namespace NodeEntry

/-- The facets of the string of a node; flags count only with a pattern. -/
def stringFacets (c : NodeEntry) : List StringFacet :=
  (c.length.map .length).toList ++ (c.minLength.map .minLength).toList ++
    (c.maxLength.map .maxLength).toList ++
    (c.pattern.map fun p => .pattern ⟨p, c.flags⟩).toList

/-- The facet of a bound, if there is a bound. -/
def bound (facet : NumericLiteral → NumericFacet) :
    Option String → Except LoadError (List NumericFacet)
  | none => .ok []
  | some text => do pure [facet (← number text)]

/-- The facets of the number of a node. -/
def numericFacets (c : NodeEntry) : Except LoadError (List NumericFacet) := do
  let minInclusive ← bound .minInclusive c.minInclusive
  let minExclusive ← bound .minExclusive c.minExclusive
  let maxInclusive ← bound .maxInclusive c.maxInclusive
  let maxExclusive ← bound .maxExclusive c.maxExclusive
  pure (minInclusive ++ minExclusive ++ maxInclusive ++ maxExclusive ++
    (c.totalDigits.map .totalDigits).toList ++ (c.fractionDigits.map .fractionDigits).toList)

/-- The expression of a node constraint.  A constraint to a value set without values holds
nowhere. -/
def expression (c : NodeEntry) : Except LoadError ShapeExpr := do
  let datatype ← c.datatype.mapM iri
  let numbers ← c.numericFacets
  match c.values with
  | some [] => pure (.or [])
  | values =>
    let values ← (values.getD []).mapM ValueEntry.toValue
    pure (.node ⟨c.kind, datatype, c.stringFacets, numbers, values, none⟩)

end NodeEntry

/-! ## Expressions -/

/-- The label that an `id` gives, if there is an `id`. -/
def labelOf? (id : Option String) : Except LoadError (Option Label) := id.mapM resource

mutual

/-- The expression of an entry. -/
def ShapeEntry.expression : ShapeEntry → Except LoadError ShapeExpr
  | .reference label => do pure (.ref (← resource label))
  | .or id operands => do
    let _ ← labelOf? id
    pure (.or (← ShapeEntry.expressions operands))
  | .and id operands => do
    let _ ← labelOf? id
    pure (.and (← ShapeEntry.expressions operands))
  | .not id operand => do
    let _ ← labelOf? id
    pure (.not (← operand.expression))
  | .node id c => do
    let _ ← labelOf? id
    c.expression
  | .shape id body => do
    let _ ← labelOf? id
    pure (.shape (← body.toShape))
  | .external id => do
    let _ ← labelOf? id
    pure .external
  | .declaration id _ _ => do
    let _ ← resource id
    .error (.invalidSchema (.misplacedDeclaration id))

/-- The expressions of a list of entries. -/
def ShapeEntry.expressions : List ShapeEntry → Except LoadError (List ShapeExpr)
  | [] => .ok []
  | e :: rest => do
    let first ← e.expression
    pure (first :: (← ShapeEntry.expressions rest))

/-- The shape of an entry. -/
def ShapeBody.toShape : ShapeBody → Except LoadError Shape
  | ⟨closed, extra, expression, extended, restricted, acts⟩ => do
    let extra ← extra.mapM iri
    let expression ←
      match expression with
      | none => pure none
      | some e => do pure (some (← e.expression))
    let extended ← extended.mapM resource
    let restricted ← restricted.mapM resource
    let acts ← acts.mapM ActEntry.action
    pure ⟨closed, extra, expression, extended, restricted, acts⟩

/-- The triple expression of an entry. -/
def TripleEntry.expression : TripleEntry → Except LoadError TripleExpr
  | .reference label => do pure (.ref (← resource label))
  | .eachOf id g => do
    let _ ← labelOf? id
    pure (.eachOf (← g.toGroup))
  | .oneOf id g => do
    let _ ← labelOf? id
    pure (.oneOf (← g.toGroup))
  | .triple id t => do
    let _ ← labelOf? id
    pure (.triple (← t.toConstraint))

/-- The triple expressions of a list of entries. -/
def TripleEntry.expressions : List TripleEntry → Except LoadError (List TripleExpr)
  | [] => .ok []
  | e :: rest => do
    let first ← e.expression
    pure (first :: (← TripleEntry.expressions rest))

/-- The group of an entry; it has a cardinality only if one of the bounds is written. -/
def GroupBody.toGroup : GroupBody → Except LoadError TripleGroup
  | ⟨members, min, max, acts⟩ => do
    let members ← TripleEntry.expressions members
    let bounds ←
      if min.isNone && max.isNone then pure none else do pure (some (← cardinality min max))
    let acts ← acts.mapM ActEntry.action
    pure ⟨members, bounds, acts⟩

/-- The triple constraint of an entry. -/
def TripleBody.toConstraint : TripleBody → Except LoadError TripleConstraint
  | ⟨inverse, predicate, value, min, max, acts⟩ => do
    let predicate ← iri predicate
    let value ←
      match value with
      | none => pure none
      | some e => do pure (some (← e.expression))
    let bounds ← cardinality min max
    let acts ← acts.mapM ActEntry.action
    pure ⟨predicate, inverse, value, bounds, acts⟩

end

/-! ## Labelled expressions -/

/-- The entry under its `id`, if it has one. -/
def ShapeEntry.underId (e : ShapeEntry) : List (String × ShapeEntry) :=
  (e.id?.map (·, e)).toList

/-- The entry under its `id`, if it has one. -/
def TripleEntry.underId (e : TripleEntry) : List (String × TripleEntry) :=
  (e.id?.map (·, e)).toList

mutual

/-- The labelled shape expressions strictly inside an entry, in post-order. -/
def ShapeEntry.labelledInside : ShapeEntry → List (String × ShapeEntry)
  | .or _ operands => ShapeEntry.labelledOfAll operands
  | .and _ operands => ShapeEntry.labelledOfAll operands
  | .not _ operand => operand.labelledInside ++ operand.underId
  | .shape _ body => body.labelled
  | .declaration _ _ e => e.labelledInside ++ e.underId
  | _ => []

/-- The labelled shape expressions of a list of entries, the entries included. -/
def ShapeEntry.labelledOfAll : List ShapeEntry → List (String × ShapeEntry)
  | [] => []
  | e :: rest => e.labelledInside ++ e.underId ++ ShapeEntry.labelledOfAll rest

/-- The labelled shape expressions of a shape. -/
def ShapeBody.labelled : ShapeBody → List (String × ShapeEntry)
  | ⟨_, _, none, _, _, _⟩ => []
  | ⟨_, _, some e, _, _, _⟩ => e.labelled

/-- The labelled shape expressions of a triple expression. -/
def TripleEntry.labelled : TripleEntry → List (String × ShapeEntry)
  | .reference _ => []
  | .eachOf _ g => g.labelled
  | .oneOf _ g => g.labelled
  | .triple _ t => t.labelled

/-- The labelled shape expressions of a group. -/
def GroupBody.labelled : GroupBody → List (String × ShapeEntry)
  | ⟨members, _, _, _⟩ => TripleEntry.labelledOfAll members

/-- The labelled shape expressions of a list of triple expressions. -/
def TripleEntry.labelledOfAll : List TripleEntry → List (String × ShapeEntry)
  | [] => []
  | e :: rest => e.labelled ++ TripleEntry.labelledOfAll rest

/-- The labelled shape expressions of the value expression of a triple constraint. -/
def TripleBody.labelled : TripleBody → List (String × ShapeEntry)
  | ⟨_, _, none, _, _, _⟩ => []
  | ⟨_, _, some e, _, _, _⟩ => e.labelledInside ++ e.underId

end

mutual

/-- The labelled triple expressions inside a shape expression, in post-order. -/
def ShapeEntry.labelledTriples : ShapeEntry → List (String × TripleEntry)
  | .or _ operands => ShapeEntry.labelledTriplesOfAll operands
  | .and _ operands => ShapeEntry.labelledTriplesOfAll operands
  | .not _ operand => operand.labelledTriples
  | .shape _ body => body.labelledTriples
  | .declaration _ _ e => e.labelledTriples
  | _ => []

/-- The labelled triple expressions of a list of shape expressions. -/
def ShapeEntry.labelledTriplesOfAll : List ShapeEntry → List (String × TripleEntry)
  | [] => []
  | e :: rest => e.labelledTriples ++ ShapeEntry.labelledTriplesOfAll rest

/-- The labelled triple expressions of a shape. -/
def ShapeBody.labelledTriples : ShapeBody → List (String × TripleEntry)
  | ⟨_, _, none, _, _, _⟩ => []
  | ⟨_, _, some e, _, _, _⟩ => e.labelledInside ++ e.underId

/-- The labelled triple expressions strictly inside a triple expression. -/
def TripleEntry.labelledInside : TripleEntry → List (String × TripleEntry)
  | .reference _ => []
  | .eachOf _ g => g.labelledTriples
  | .oneOf _ g => g.labelledTriples
  | .triple _ t => t.labelledTriples

/-- The labelled triple expressions of a group. -/
def GroupBody.labelledTriples : GroupBody → List (String × TripleEntry)
  | ⟨members, _, _, _⟩ => TripleEntry.labelledTriplesOfAll members

/-- The labelled triple expressions of a list of triple expressions, these included. -/
def TripleEntry.labelledTriplesOfAll : List TripleEntry → List (String × TripleEntry)
  | [] => []
  | e :: rest => e.labelledInside ++ e.underId ++ TripleEntry.labelledTriplesOfAll rest

/-- The labelled triple expressions of the value expression of a triple constraint. -/
def TripleBody.labelledTriples : TripleBody → List (String × TripleEntry)
  | ⟨_, _, none, _, _, _⟩ => []
  | ⟨_, _, some e, _, _, _⟩ => e.labelledTriples

end

/-! ## Schemas -/

/-- The declaration of an entry of the shapes list. -/
def ShapeEntry.toDeclaration : ShapeEntry → Except LoadError Declaration
  | .reference label => .error (.invalidSchema (.bareReference label))
  | .declaration id isAbstract e => do
    let label ← resource id
    pure ⟨label, isAbstract, ← e.expression⟩
  | e => do
    match ← labelOf? e.id? with
    | none => .error (.invalidSchema .unlabelled)
    | some label => pure ⟨label, false, ← e.expression⟩

/-- The declaration of a labelled expression inside another one. -/
def inlineDeclaration (entry : String × ShapeEntry) : Except LoadError Declaration := do
  let label ← resource entry.1
  pure ⟨label, false, ← entry.2.expression⟩

/-- A labelled triple expression. -/
def labelledTriple (entry : String × TripleEntry) : Except LoadError (Label × TripleExpr) := do
  let label ← resource entry.1
  pure (label, ← entry.2.expression)

namespace Document

/-- The labelled shape expressions inside the expressions of a document; the start expression
counts as inside. -/
def labelled (d : Document) : List (String × ShapeEntry) :=
  d.shapes.flatMap ShapeEntry.labelledInside ++ ShapeEntry.labelledOfAll d.start.toList

/-- The labelled triple expressions of a document. -/
def labelledTriples (d : Document) : List (String × TripleEntry) :=
  ShapeEntry.labelledTriplesOfAll (d.shapes ++ d.start.toList)

/-- The schema that a document describes. -/
def load (d : Document) : Except LoadError Schema := do
  let imports ← d.imports.mapM iri
  let startActs ← d.startActs.mapM ActEntry.action
  let declarations ← d.shapes.mapM ShapeEntry.toDeclaration
  let start ← d.start.mapM ShapeEntry.expression
  let inline ← d.labelled.mapM inlineDeclaration
  let triples ← d.labelledTriples.mapM labelledTriple
  let schema := { Schema.empty with imports := imports, startActs := startActs }
  let schema := start.elim schema schema.setStart
  let schema := (inline ++ declarations).foldl Schema.addShape schema
  pure (triples.foldl (fun s entry => s.addTripleExpression entry.1 entry.2) schema)

end Document

/-- Loads the text of a schema. -/
def load (text : List Json.Symbol) : Except LoadError Schema :=
  match Document.ofText? text with
  | none => .error .malformed
  | some d => d.load

end ShEx.ShExJ
