import ShEx.Expression.Cardinality
import ShEx.Expression.NodeConstraint

/-!
# Shape expressions and triple expressions

A shape expression says what a node has to be: a Boolean combination of node constraints, shapes
and references to declared shapes.  A shape says which arcs a node has, by a triple expression: a
tree of `EachOf` and `OneOf` groups over triple constraints, where labelled triple expressions can
be reused by reference.  A triple constraint may ask for a shape expression at the other end of
its arcs, so the two kinds of expressions contain each other.

The module also holds the walks over expressions that everything else is built on: the node
constraints in reading order, their numbering, the references, and structural equality.
-/

set_option autoImplicit false

namespace ShEx

open ShEx.Rdf

/-- The label of a shape declaration or a triple expression. -/
abbrev Label := Resource

/-- A semantic action: a name and possibly its code. -/
structure SemanticAction where
  name : Iri
  code : Option String
deriving DecidableEq, Inhabited

mutual

/-- What a node has to be. -/
inductive ShapeExpr where
  /-- One of the operands holds. -/
  | or (operands : List ShapeExpr)
  /-- All operands hold. -/
  | and (operands : List ShapeExpr)
  /-- The operand does not hold. -/
  | not (operand : ShapeExpr)
  /-- The node itself satisfies a constraint. -/
  | node (constraint : NodeConstraint)
  /-- The arcs of the node are as a shape says. -/
  | shape (shape : Shape)
  /-- Something defined elsewhere. -/
  | external
  /-- The expression declared with a label holds. -/
  | ref (label : Label)

/-- What the arcs of a node have to be. -/
structure Shape where
  /-- Are outgoing arcs refused whose predicate the shape does not mention? -/
  closed : Bool
  /-- Predicates of which further arcs are admitted. -/
  extra : List Iri
  expression : Option TripleExpr
  extended : List Label
  restricted : List Label
  acts : List SemanticAction

/-- How the arcs of a node are shared out. -/
inductive TripleExpr where
  | eachOf (group : TripleGroup)
  | oneOf (group : TripleGroup)
  | triple (constraint : TripleConstraint)
  | ref (label : Label)

/-- The members of an `EachOf` or a `OneOf`. -/
structure TripleGroup where
  members : List TripleExpr
  cardinality : Option Cardinality
  acts : List SemanticAction

/-- Arcs with a predicate, in one direction, whose other ends satisfy an expression. -/
structure TripleConstraint where
  predicate : Iri
  /-- Does the constraint speak about incoming arcs? -/
  inverse : Bool
  value : Option ShapeExpr
  cardinality : Cardinality
  acts : List SemanticAction

end

/-- The shape that says nothing about arcs. -/
def Shape.any : Shape := ⟨false, [], none, [], [], []⟩

/-- A reference inside an expression. -/
inductive Reference where
  | shape (label : Label)
  | tripleExpr (label : Label)
deriving DecidableEq

/-- The label that a reference names. -/
def Reference.label : Reference → Label
  | .shape label => label
  | .tripleExpr label => label

/-! ## The node constraints of an expression, in reading order -/

mutual

/-- The node constraints of a shape expression, those of value expressions included. -/
def ShapeExpr.constraints : ShapeExpr → List NodeConstraint
  | .or operands => ShapeExpr.constraintsOfAll operands
  | .and operands => ShapeExpr.constraintsOfAll operands
  | .not operand => operand.constraints
  | .node c => [c]
  | .shape s => s.constraints
  | .external => []
  | .ref _ => []

/-- The node constraints of a list of shape expressions. -/
def ShapeExpr.constraintsOfAll : List ShapeExpr → List NodeConstraint
  | [] => []
  | e :: es => e.constraints ++ ShapeExpr.constraintsOfAll es

/-- The node constraints of a shape. -/
def Shape.constraints : Shape → List NodeConstraint
  | ⟨_, _, none, _, _, _⟩ => []
  | ⟨_, _, some e, _, _, _⟩ => e.constraints

/-- The node constraints of a triple expression. -/
def TripleExpr.constraints : TripleExpr → List NodeConstraint
  | .eachOf g => g.constraints
  | .oneOf g => g.constraints
  | .triple t => t.constraints
  | .ref _ => []

/-- The node constraints of a group. -/
def TripleGroup.constraints : TripleGroup → List NodeConstraint
  | ⟨members, _, _⟩ => TripleExpr.constraintsOfAll members

/-- The node constraints of a list of triple expressions. -/
def TripleExpr.constraintsOfAll : List TripleExpr → List NodeConstraint
  | [] => []
  | e :: es => e.constraints ++ TripleExpr.constraintsOfAll es

/-- The node constraints of the value expression of a triple constraint. -/
def TripleConstraint.constraints : TripleConstraint → List NodeConstraint
  | ⟨_, _, none, _, _⟩ => []
  | ⟨_, _, some e, _, _⟩ => e.constraints

end

/-! ## Numbering the node constraints -/

mutual

/-- The expression with its node constraints numbered from `next` on in reading order, and the
first number left. -/
def ShapeExpr.numbered (next : Nat) : ShapeExpr → ShapeExpr × Nat
  | .or operands =>
    let (operands, next) := ShapeExpr.numberedAll next operands
    (.or operands, next)
  | .and operands =>
    let (operands, next) := ShapeExpr.numberedAll next operands
    (.and operands, next)
  | .not operand =>
    let (operand, next) := operand.numbered next
    (.not operand, next)
  | .node c => (.node { c with id := some next }, next + 1)
  | .shape s =>
    let (s, next) := s.numbered next
    (.shape s, next)
  | .external => (.external, next)
  | .ref label => (.ref label, next)

/-- A list of shape expressions, numbered one after the other. -/
def ShapeExpr.numberedAll (next : Nat) : List ShapeExpr → List ShapeExpr × Nat
  | [] => ([], next)
  | e :: es =>
    let (e, next) := e.numbered next
    let (es, next) := ShapeExpr.numberedAll next es
    (e :: es, next)

/-- A shape with the node constraints of its triple expression numbered. -/
def Shape.numbered (next : Nat) : Shape → Shape × Nat
  | ⟨closed, extra, none, extended, restricted, acts⟩ =>
    (⟨closed, extra, none, extended, restricted, acts⟩, next)
  | ⟨closed, extra, some e, extended, restricted, acts⟩ =>
    let (e, next) := e.numbered next
    (⟨closed, extra, some e, extended, restricted, acts⟩, next)

/-- A triple expression with its node constraints numbered. -/
def TripleExpr.numbered (next : Nat) : TripleExpr → TripleExpr × Nat
  | .eachOf g =>
    let (g, next) := g.numbered next
    (.eachOf g, next)
  | .oneOf g =>
    let (g, next) := g.numbered next
    (.oneOf g, next)
  | .triple t =>
    let (t, next) := t.numbered next
    (.triple t, next)
  | .ref label => (.ref label, next)

/-- A group with the node constraints of its members numbered. -/
def TripleGroup.numbered (next : Nat) : TripleGroup → TripleGroup × Nat
  | ⟨members, cardinality, acts⟩ =>
    let (members, next) := TripleExpr.numberedAll next members
    (⟨members, cardinality, acts⟩, next)

/-- A list of triple expressions, numbered one after the other. -/
def TripleExpr.numberedAll (next : Nat) : List TripleExpr → List TripleExpr × Nat
  | [] => ([], next)
  | e :: es =>
    let (e, next) := e.numbered next
    let (es, next) := TripleExpr.numberedAll next es
    (e :: es, next)

/-- A triple constraint with the node constraints of its value expression numbered. -/
def TripleConstraint.numbered (next : Nat) : TripleConstraint → TripleConstraint × Nat
  | ⟨predicate, inverse, none, cardinality, acts⟩ =>
    (⟨predicate, inverse, none, cardinality, acts⟩, next)
  | ⟨predicate, inverse, some e, cardinality, acts⟩ =>
    let (e, next) := e.numbered next
    (⟨predicate, inverse, some e, cardinality, acts⟩, next)

end

/-! ## References -/

mutual

/-- The references of a shape expression, those of value expressions included. -/
def ShapeExpr.references : ShapeExpr → List Reference
  | .or operands => ShapeExpr.referencesOfAll operands
  | .and operands => ShapeExpr.referencesOfAll operands
  | .not operand => operand.references
  | .node _ => []
  | .shape s => s.references
  | .external => []
  | .ref label => [.shape label]

/-- The references of a list of shape expressions. -/
def ShapeExpr.referencesOfAll : List ShapeExpr → List Reference
  | [] => []
  | e :: es => e.references ++ ShapeExpr.referencesOfAll es

/-- The references of a shape: the shapes it extends, those it restricts, and those of its triple
expression. -/
def Shape.references : Shape → List Reference
  | ⟨_, _, none, extended, restricted, _⟩ => (extended ++ restricted).map .shape
  | ⟨_, _, some e, extended, restricted, _⟩ =>
    (extended ++ restricted).map .shape ++ e.references

/-- The references of a triple expression. -/
def TripleExpr.references : TripleExpr → List Reference
  | .eachOf g => g.references
  | .oneOf g => g.references
  | .triple t => t.references
  | .ref label => [.tripleExpr label]

/-- The references of a group. -/
def TripleGroup.references : TripleGroup → List Reference
  | ⟨members, _, _⟩ => TripleExpr.referencesOfAll members

/-- The references of a list of triple expressions. -/
def TripleExpr.referencesOfAll : List TripleExpr → List Reference
  | [] => []
  | e :: es => e.references ++ TripleExpr.referencesOfAll es

/-- The references of the value expression of a triple constraint. -/
def TripleConstraint.references : TripleConstraint → List Reference
  | ⟨_, _, none, _, _⟩ => []
  | ⟨_, _, some e, _, _⟩ => e.references

end

/-! ## Equality -/

mutual

/-- Do two shape expressions say the same?  Numbers given by a schema do not count, and a bound
that is not a number differs from itself. -/
def ShapeExpr.equal : ShapeExpr → ShapeExpr → Bool
  | .or a, .or b => ShapeExpr.equalAll a b
  | .and a, .and b => ShapeExpr.equalAll a b
  | .not a, .not b => a.equal b
  | .node a, .node b => a.equal b
  | .shape a, .shape b => a.equal b
  | .external, .external => true
  | .ref a, .ref b => a = b
  | _, _ => false
termination_by structural e => e

/-- Equality of lists of shape expressions. -/
def ShapeExpr.equalAll : List ShapeExpr → List ShapeExpr → Bool
  | [], [] => true
  | a :: as, b :: bs => a.equal b && ShapeExpr.equalAll as bs
  | _, _ => false
termination_by structural e => e

/-- Equality of shapes. -/
def Shape.equal : Shape → Shape → Bool
  | ⟨closed, extra, expression, extended, restricted, acts⟩, b =>
    closed = b.closed && extra = b.extra &&
      (match expression, b.expression with
      | none, none => true
      | some e, some f => e.equal f
      | _, _ => false) &&
      extended = b.extended && restricted = b.restricted && acts = b.acts
termination_by structural e => e

/-- Equality of triple expressions. -/
def TripleExpr.equal : TripleExpr → TripleExpr → Bool
  | .eachOf a, .eachOf b => a.equal b
  | .oneOf a, .oneOf b => a.equal b
  | .triple a, .triple b => a.equal b
  | .ref a, .ref b => a = b
  | _, _ => false
termination_by structural e => e

/-- Equality of groups. -/
def TripleGroup.equal : TripleGroup → TripleGroup → Bool
  | ⟨members, cardinality, acts⟩, b =>
    TripleExpr.equalAll members b.members && cardinality = b.cardinality && acts = b.acts
termination_by structural e => e

/-- Equality of lists of triple expressions. -/
def TripleExpr.equalAll : List TripleExpr → List TripleExpr → Bool
  | [], [] => true
  | a :: as, b :: bs => a.equal b && TripleExpr.equalAll as bs
  | _, _ => false
termination_by structural e => e

/-- Equality of triple constraints. -/
def TripleConstraint.equal : TripleConstraint → TripleConstraint → Bool
  | ⟨predicate, inverse, value, cardinality, acts⟩, b =>
    predicate = b.predicate && inverse = b.inverse &&
      (match value, b.value with
      | none, none => true
      | some e, some f => e.equal f
      | _, _ => false) &&
      cardinality = b.cardinality && acts = b.acts
termination_by structural e => e

end

end ShEx
