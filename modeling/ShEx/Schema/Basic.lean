import ShEx.Expression.Basic

/-!
# Schemas

A schema holds shape declarations, labelled triple expressions, possibly a start expression, and
the imports and start actions it asks for.  Declarations are kept in the order in which their
labels first came; declaring a label again replaces the expression in its place, so the number of
a declaration stands for its label from then on.

Every node constraint gets a fresh number when it enters the schema.  The module holds the
operations that build a schema and those that look labels up, `resolveTriple?` following
references of triple expressions to the end of their chain.
-/

set_option autoImplicit false

namespace ShEx

open ShEx.Rdf

/-- A shape expression with a label. -/
structure Declaration where
  label : Label
  /-- An abstract declaration cannot be asked for. -/
  isAbstract : Bool
  expression : ShapeExpr

/-- A schema. -/
structure Schema where
  declarations : List Declaration
  tripleExpressions : List (Label × TripleExpr)
  start : Option ShapeExpr
  imports : List Iri
  startActs : List SemanticAction
  /-- The number that the next node constraint gets. -/
  nextConstraint : Nat

namespace Schema

/-- The schema that declares nothing. -/
def empty : Schema := ⟨[], [], none, [], [], 0⟩

/-! ## Looking up -/

/-- The number of the declaration with a label. -/
def declarationIndex? (s : Schema) (label : Label) : Option Nat :=
  s.declarations.findIdx? fun d => d.label = label

/-- The declaration with a number. -/
def declaration? (s : Schema) (index : Nat) : Option Declaration := s.declarations[index]?

/-- The declaration with a label, and its number. -/
def find? (s : Schema) (label : Label) : Option (Nat × Declaration) :=
  match s.declarationIndex? label with
  | none => none
  | some index => (s.declaration? index).map fun d => (index, d)

/-- The triple expression with a label. -/
def tripleExpression? (s : Schema) (label : Label) : Option TripleExpr :=
  s.tripleExpressions.lookup label

/-- The expression that a reference to a declaration stands for, which may be a reference again;
any other expression stands for itself. -/
def resolveShape? (s : Schema) : ShapeExpr → Option ShapeExpr
  | .ref label => (s.find? label).map fun (_, d) => d.expression
  | e => some e

/-- Follows references from a triple expression in at most so many steps. -/
def follow? (s : Schema) : Nat → TripleExpr → Option TripleExpr
  | 0, _ => none
  | n + 1, .ref label =>
    match s.tripleExpression? label with
    | none => none
    | some e => s.follow? n e
  | _ + 1, e => some e

/-- The expression at the end of the chain of references that begins with a triple expression.
There is none if the chain reaches an unknown label or turns in a circle: a chain that ends
passes no label twice. -/
def resolveTriple? (s : Schema) (e : TripleExpr) : Option TripleExpr :=
  s.follow? (s.tripleExpressions.length + 1) e

/-- The number of declarations. -/
def size (s : Schema) : Nat := s.declarations.length

/-- Does the schema declare no shape? -/
def isEmpty (s : Schema) : Bool := s.declarations.isEmpty

/-! ## Building -/

/-- Puts a declaration in the place of the one with its label, or at the end. -/
def placed (d : Declaration) : List Declaration → List Declaration
  | [] => [d]
  | e :: rest => if e.label = d.label then d :: rest else e :: placed d rest

/-- Puts a labelled triple expression in the place of the one with its label, or at the end. -/
def placedTriple (label : Label) (e : TripleExpr) :
    List (Label × TripleExpr) → List (Label × TripleExpr)
  | [] => [(label, e)]
  | entry :: rest =>
    if entry.1 = label then (label, e) :: rest else entry :: placedTriple label e rest

/-- The schema with one more declaration, its node constraints numbered. -/
def addShape (s : Schema) (d : Declaration) : Schema :=
  let (e, next) := d.expression.numbered s.nextConstraint
  { s with
    declarations := placed { d with expression := e } s.declarations
    nextConstraint := next }

/-- The schema with one more labelled triple expression, its node constraints numbered. -/
def addTripleExpression (s : Schema) (label : Label) (e : TripleExpr) : Schema :=
  let (e, next) := e.numbered s.nextConstraint
  { s with
    tripleExpressions := placedTriple label e s.tripleExpressions
    nextConstraint := next }

/-- The schema with another start expression, its node constraints numbered. -/
def setStart (s : Schema) (e : ShapeExpr) : Schema :=
  let (e, next) := e.numbered s.nextConstraint
  { s with start := some e, nextConstraint := next }

/-- The schema with one more import. -/
def addImport (s : Schema) (iri : Iri) : Schema := { s with imports := s.imports ++ [iri] }

/-- The schema with one more start action. -/
def addStartAct (s : Schema) (act : SemanticAction) : Schema :=
  { s with startActs := s.startActs ++ [act] }

/-! ## What the schema contains -/

/-- The references of all expressions: those of the declarations, of the labelled triple
expressions and of the start expression. -/
def references (s : Schema) : List Reference :=
  (s.declarations.flatMap fun d => d.expression.references) ++
    (s.tripleExpressions.flatMap fun entry => entry.2.references) ++
    s.start.elim [] ShapeExpr.references

/-- The node constraints of all expressions, in the order of `references`. -/
def constraints (s : Schema) : List NodeConstraint :=
  (s.declarations.flatMap fun d => d.expression.constraints) ++
    (s.tripleExpressions.flatMap fun entry => entry.2.constraints) ++
    s.start.elim [] ShapeExpr.constraints

/-- Is the label of a reference known? -/
def defines (s : Schema) : Reference → Bool
  | .shape label => (s.declarationIndex? label).isSome
  | .tripleExpr label => (s.tripleExpression? label).isSome

end Schema

end ShEx
