import ShEx.Schema.Basic
import ShEx.Validation.Failure

/-!
# Triple expressions as formulas over slots

The triple constraints of a shape, with references expanded, are numbered in reading order: they
are the *slots* that arcs are assigned to.  What is left of the triple expression is a formula
over slots, which is evaluated on the number of arcs in each slot.

The value of a formula is one of three.  A slot with arcs in its cardinality is satisfied; a slot
that is allowed to be empty and is empty is satisfied without having used an arc, `vacuous`.  A
`OneOf` needs exactly one member that uses arcs, or a vacuous one if no member does.  Arcs below a
member that is not satisfied do not count as used.
-/

set_option autoImplicit false

namespace ShEx

/-- How a formula is satisfied. -/
inductive Satisfaction where
  | unsatisfied
  /-- Satisfied, and no arc has been used. -/
  | vacuous
  /-- Satisfied by arcs. -/
  | satisfied
deriving DecidableEq, Inhabited

namespace Satisfaction

/-- Is the formula satisfied in one way or the other? -/
def holds (s : Satisfaction) : Bool := s != .unsatisfied

/-- All of several formulas together. -/
def all (values : List Satisfaction) : Satisfaction :=
  if values.contains .unsatisfied then .unsatisfied
  else if values.contains .satisfied then .satisfied
  else .vacuous

/-- One of several formulas: exactly one uses arcs, or none does and one is vacuous. -/
def one (values : List Satisfaction) : Satisfaction :=
  match values.count .satisfied with
  | 1 => .satisfied
  | 0 => if values.contains .vacuous then .vacuous else .unsatisfied
  | _ => .unsatisfied

end Satisfaction

/-- A formula over slots. -/
inductive Formula where
  | all (parts : List Formula)
  | one (parts : List Formula)
  | value (value : Satisfaction)
  | slot (index : Nat)

/-- The satisfaction of a slot with so many arcs. -/
def TripleConstraint.satisfaction (t : TripleConstraint) (count : Nat) : Satisfaction :=
  if !t.cardinality.allows count then .unsatisfied
  else if 0 < count then .satisfied
  else .vacuous

mutual

/-- The value of a formula on the number of arcs in each slot. -/
def Formula.evaluate (slots : List TripleConstraint) (counts : List Nat) :
    Formula → Satisfaction
  | .all parts => .all (Formula.evaluateAll slots counts parts)
  | .one parts => .one (Formula.evaluateAll slots counts parts)
  | .value v => v
  | .slot i =>
    match slots[i]? with
    | none => .unsatisfied
    | some t => t.satisfaction (counts.getD i 0)

/-- The values of a list of formulas. -/
def Formula.evaluateAll (slots : List TripleConstraint) (counts : List Nat) :
    List Formula → List Satisfaction
  | [] => []
  | f :: fs => f.evaluate slots counts :: Formula.evaluateAll slots counts fs

end

/-! ## From triple expressions to formulas -/

/-- A failure if there are semantic actions, which are not supported. -/
def rejectActs (acts : List SemanticAction) : Except Failure Unit :=
  if acts.isEmpty then .ok () else .error (.notImplemented .semanticActions)

/-- A formula together with all slots met so far. -/
abbrev Compiled := Formula × List TripleConstraint

mutual

/-- The formula of a triple expression, its slots added to those met before.  A label that is
referred to is expanded by `expand`. -/
def TripleExpr.compileWith
    (expand : Label → List TripleConstraint → Except Failure Compiled) :
    TripleExpr → List TripleConstraint → Except Failure Compiled
  | .eachOf g, slots => do
    let (parts, slots) ← g.compileWith expand slots
    .ok (.all parts, slots)
  | .oneOf g, slots => do
    let (parts, slots) ← g.compileWith expand slots
    .ok (.one parts, slots)
  | .triple t, slots => do
    rejectActs t.acts
    .ok (.slot slots.length, slots ++ [t])
  | .ref label, slots => expand label slots

/-- The formulas of the members of a group.  A cardinality on a group is not supported, unless it
says that the group stands once. -/
def TripleGroup.compileWith
    (expand : Label → List TripleConstraint → Except Failure Compiled) :
    TripleGroup → List TripleConstraint → Except Failure (List Formula × List TripleConstraint)
  | ⟨members, cardinality, acts⟩, slots => do
    if cardinality.any (· != Cardinality.one) then .error (.notImplemented .groupCardinality)
    rejectActs acts
    TripleExpr.compileAllWith expand members slots

/-- The formulas of a list of triple expressions, one after the other. -/
def TripleExpr.compileAllWith
    (expand : Label → List TripleConstraint → Except Failure Compiled) :
    List TripleExpr → List TripleConstraint →
      Except Failure (List Formula × List TripleConstraint)
  | [], slots => .ok ([], slots)
  | e :: es, slots => do
    let (f, slots) ← e.compileWith expand slots
    let (fs, slots) ← TripleExpr.compileAllWith expand es slots
    .ok (f :: fs, slots)

end

namespace Schema

/-- The formula of a triple expression inside the labels that are being expanded, with at most so
many more expansions inside each other.  A label inside its own expansion is not supported; a
label that leads to an unknown one is never satisfied. -/
def compileTriple (s : Schema) :
    Nat → List Label → TripleExpr → List TripleConstraint → Except Failure Compiled
  | 0, _, e, slots =>
    e.compileWith (fun _ _ => .error (.notImplemented .recursiveTripleReferences)) slots
  | n + 1, expanding, e, slots =>
    e.compileWith
      (fun label slots =>
        if expanding.contains label then
          .error (.notImplemented .recursiveTripleReferences)
        else
          match s.resolveTriple? (.ref label) with
          | some target => s.compileTriple n (label :: expanding) target slots
          | none =>
            if (s.tripleExpression? label).isSome then
              .error (.notImplemented .recursiveTripleReferences)
            else .ok (.value .unsatisfied, slots))
      slots

/-- The formula and the slots of the triple expression of a shape.  Every expansion is of another
label that the schema knows, so there are never more inside each other than it has. -/
def compile (s : Schema) : Option TripleExpr → Except Failure Compiled
  | none => .ok (.value .satisfied, [])
  | some e => s.compileTriple (s.tripleExpressions.length + 1) [] e []

end Schema

end ShEx
