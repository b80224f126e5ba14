import ShEx.Validation.ArcSearch
import ShEx.Validation.Session

/-!
# Evaluating shape expressions

One step of the evaluation of a shape expression at a node (`step`) is written over a function that
evaluates what the step asks for further: operands, the expression of a declaration, the value
expressions at the other ends of arcs.  `evaluate` closes this recursion at a given depth of
nesting; what would nest deeper does not end.

The operands of a conjunction or disjunction are evaluated from left to right up to the first one
that settles it, and a failure anywhere ends the whole evaluation.  The arcs of a shape are taken
in the order of the listing; an outgoing arc without any option settles the shape at once.

Nesting is bounded by `nestingBound` unless an evaluation comes back to the same expression at the
same node with no new declaration in progress, and then it would come back for ever.
-/

set_option autoImplicit false

namespace ShEx

open ShEx.Rdf

/-- A function that evaluates an expression at a node. -/
abbrev Evaluator := ShapeExpr → Term → Evaluation Bool

namespace Setting

/-! ## Shapes -/

/-- The slots, numbered from `i` on, that an arc is eligible for: those of its direction and
predicate whose value expression holds at its other end. -/
def eligibleSlots (eval : Evaluator) (arc : Arc) :
    Nat → List TripleConstraint → Evaluation (List Choice)
  | _, [] => pure []
  | i, t :: rest =>
    if t.concerns arc then do
      let admitted ←
        match t.value with
        | none => pure true
        | some e => eval e arc.neighbour
      let others ← eligibleSlots eval arc (i + 1) rest
      pure (if admitted then .slot i :: others else others)
    else eligibleSlots eval arc (i + 1) rest

/-- The options of each arc that has to go somewhere; none if an outgoing arc cannot.  An incoming
arc that no slot takes is passed over. -/
def arcOptions (eval : Evaluator) (shape : Shape) (slots : List TripleConstraint) :
    List Arc → Evaluation (Option (List (List Choice)))
  | [] => pure (some [])
  | arc :: rest => do
    let eligible ← eligibleSlots eval arc 0 slots
    if arc.inverse then
      let items ← arcOptions eval shape slots rest
      pure (if eligible.isEmpty then items else items.map (eligible :: ·))
    else
      let options :=
        if shape.allowsExtra slots arc.predicate then eligible ++ [.extra] else eligible
      if options.isEmpty then pure none
      else
        let items ← arcOptions eval shape slots rest
        pure (items.map (options :: ·))

/-- The arcs of a node that a shape with these slots looks at: the incoming ones only if a slot
speaks about them. -/
def arcsOf (w : Setting) (slots : List TripleConstraint) (node : Term) : List Arc :=
  outgoingArcs w.listing node ++
    if slots.any (·.inverse) then incomingArcs w.listing node else []

/-- Does a node have the arcs that a shape asks for? -/
def evaluateShape (w : Setting) (eval : Evaluator) (shape : Shape) (node : Term) :
    Evaluation Bool := do
  Evaluation.rejectIf (!shape.acts.isEmpty) .semanticActions
  Evaluation.rejectIf (!shape.extended.isEmpty) .extension
  Evaluation.rejectIf (!shape.restricted.isEmpty) .restriction
  let (formula, slots) ← Evaluation.ofExcept (w.schema.compile shape.expression)
  match ← arcOptions eval shape slots (w.arcsOf slots node) with
  | none => pure false
  | some items =>
    Evaluation.ofExcept (decideAssignment w.limits.maxSearchSpace formula slots items)

/-! ## Constraints and declarations -/

/-- Does a node satisfy a constraint? -/
def evaluateFresh (w : Setting) (c : NodeConstraint) (node : Term) : Evaluation Bool := fun s =>
  let (result, patterns) := c.evaluate w.limits.maxRegexLength node s.patterns
  some (result, { s with patterns := patterns })

/-- Does a node satisfy a constraint?  The answer for a numbered constraint is kept. -/
def evaluateConstraint (w : Setting) (c : NodeConstraint) (node : Term) : Evaluation Bool :=
  match c.id with
  | none => w.evaluateFresh c node
  | some index => do
    match (← get).constraints.answer? index node with
    | some b => pure b
    | none =>
      let b ← w.evaluateFresh c node
      modify fun s => s.record index node b
      pure b

/-- Ends a declaration in progress: its answer is kept, and without one nothing is. -/
def settling (index : Nat) (node : Term) (body : Evaluation Bool) : Evaluation Bool := fun s =>
  match body s with
  | none => none
  | some (.ok b, s) => some (.ok b, s.settle index node b)
  | some (.error f, s) => some (.error f, s.abandon index node)

/-- Does a declaration hold at a node?  An answer that is held is given again, also the one that
stands for a declaration in progress. -/
def evaluateDeclaration (w : Setting) (eval : Evaluator) (index : Nat) (d : Declaration)
    (node : Term) : Evaluation Bool := do
  let s ← get
  match s.declarations.answer? index node with
  | some b => pure b
  | none =>
    Evaluation.rejectIf d.isAbstract .abstractShapes
    if w.limits.maxRecursionDepth ≤ s.depth then Evaluation.fail (.recursionTooDeep s.depth)
    else
      set (s.enter index node)
      settling index node (eval d.expression node)

/-- Does the declaration with a label hold at a node?  An unknown label holds nowhere. -/
def evaluateReference (w : Setting) (eval : Evaluator) (label : Label) (node : Term) :
    Evaluation Bool :=
  match w.schema.find? label with
  | none => pure false
  | some (index, d) => w.evaluateDeclaration eval index d node

/-! ## Expressions -/

/-- Does one of several expressions hold? -/
def evaluateAny (eval : Evaluator) (node : Term) : List ShapeExpr → Evaluation Bool
  | [] => pure false
  | e :: rest => do
    if ← eval e node then pure true else evaluateAny eval node rest

/-- Do all of several expressions hold? -/
def evaluateAll (eval : Evaluator) (node : Term) : List ShapeExpr → Evaluation Bool
  | [] => pure true
  | e :: rest => do
    if ← eval e node then evaluateAll eval node rest else pure false

/-- One step of the evaluation of an expression at a node. -/
def step (w : Setting) (eval : Evaluator) : Evaluator
  | .or operands, node => evaluateAny eval node operands
  | .and operands, node => evaluateAll eval node operands
  | .not operand, node => do
    let b ← eval operand node
    pure (!b)
  | .node c, node => w.evaluateConstraint c node
  | .shape s, node => w.evaluateShape eval s node
  | .external, _ => Evaluation.fail (.notImplemented .externalShapes)
  | .ref label, node => w.evaluateReference eval label node

/-- Does an expression hold at a node?  Expressions are evaluated inside each other at most so
deep. -/
def evaluate (w : Setting) : Nat → Evaluator
  | 0, _, _ => Evaluation.unending
  | n + 1, e, node => w.step (w.evaluate n) e node

/-- Does the declaration with a label, or the start expression, hold at a node?  Imports and start
actions are not supported. -/
def ask (w : Setting) (nesting : Nat) (node : Term) (label : Option Label) : Evaluation Bool := do
  Evaluation.rejectIf (!w.schema.imports.isEmpty) .imports
  Evaluation.rejectIf (!w.schema.startActs.isEmpty) .semanticActions
  match label with
  | some label => w.evaluateReference (w.evaluate nesting) label node
  | none =>
    match w.schema.start with
    | some e => w.evaluate nesting e node
    | none => pure false

end Setting

/-! ## How deep evaluations nest -/

mutual

/-- The number of shape expressions inside a shape expression, itself included. -/
def ShapeExpr.size : ShapeExpr → Nat
  | .or operands => ShapeExpr.sizeOfAll operands + 1
  | .and operands => ShapeExpr.sizeOfAll operands + 1
  | .not operand => operand.size + 1
  | .node _ => 1
  | .shape s => s.size + 1
  | .external => 1
  | .ref _ => 1

/-- The number of shape expressions inside several ones. -/
def ShapeExpr.sizeOfAll : List ShapeExpr → Nat
  | [] => 0
  | e :: es => e.size + ShapeExpr.sizeOfAll es

/-- The number of shape expressions inside a shape. -/
def Shape.size : Shape → Nat
  | ⟨_, _, none, _, _, _⟩ => 0
  | ⟨_, _, some e, _, _, _⟩ => e.size

/-- The number of shape expressions inside a triple expression. -/
def TripleExpr.size : TripleExpr → Nat
  | .eachOf g => g.size
  | .oneOf g => g.size
  | .triple t => t.size
  | .ref _ => 0

/-- The number of shape expressions inside a group. -/
def TripleGroup.size : TripleGroup → Nat
  | ⟨members, _, _⟩ => TripleExpr.sizeOfAll members

/-- The number of shape expressions inside several triple expressions. -/
def TripleExpr.sizeOfAll : List TripleExpr → Nat
  | [] => 0
  | e :: es => e.size + TripleExpr.sizeOfAll es

/-- The number of shape expressions inside the value expression of a triple constraint. -/
def TripleConstraint.size : TripleConstraint → Nat
  | ⟨_, _, none, _, _⟩ => 0
  | ⟨_, _, some e, _, _⟩ => e.size

end

/-- The number of shape expressions inside a schema. -/
def Schema.expressionCount (s : Schema) : Nat :=
  (s.declarations.map fun d => d.expression.size).foldr (· + ·) 0 +
    (s.tripleExpressions.map fun entry => entry.2.size).foldr (· + ·) 0 +
    s.start.elim 0 ShapeExpr.size

/-- How deep an evaluation that ends can nest, if so many shape expressions come from outside the
schema: between two declarations that begin, no expression comes twice at one node, and no
declaration begins twice at one node. -/
def Setting.nestingBound (w : Setting) (outside : Nat) : Nat :=
  let nodes := 2 * w.graph.triples.length + 1
  let places := (w.schema.expressionCount + outside) * nodes + 1
  (w.schema.size * nodes + 1) * places

namespace Session

/-- The answer to a question about the declaration with a label, or the start expression, at a
node, and the state behind it; nothing if the evaluation does not end. -/
def validate (s : Session) (w : Setting) (node : Term) (label : Option Label) :
    Option (Except Failure Bool × Session) :=
  w.ask (w.nestingBound 0) node label s

/-- The answer to a question about an expression at a node. -/
def validateExpr (s : Session) (w : Setting) (e : ShapeExpr) (node : Term) :
    Option (Except Failure Bool × Session) :=
  w.evaluate (w.nestingBound e.size) e node s

end Session

end ShEx
