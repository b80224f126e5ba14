import ShEx.Schema.Basic
import ShEx.Rdf.TermOrder
import ShEx.Validation.Limits
import ShEx.Validation.NodeEvaluation

/-!
# Sessions

A session answers questions about the nodes of one graph under one schema.  What it looks at and
never changes is its `Setting`.  What it carries from question to question is its `Session` state:
the answers about declarations and numbered constraints that are settled, the patterns it has
compiled, and the number of declarations in progress.

While a declaration is in progress at a node, `true` stands for its answer there, so that coming
back to it ends.
-/

set_option autoImplicit false

namespace ShEx

open ShEx.Rdf

/-- What a session is about: a schema, a graph with an order of its arcs, and limits. -/
structure Setting where
  schema : Schema
  graph : Graph
  listing : graph.Listing
  limits : Limits

/-- The setting in which arcs are met in the order of terms. -/
def Setting.ofGraph (schema : Schema) (graph : Graph) (limits : Limits) : Setting :=
  ⟨schema, graph, graph.inTermOrder, limits⟩

/-- Answers by the number of what was asked for and the node it was asked of. -/
abbrev Answers := List ((Nat × Term) × Bool)

namespace Answers

/-- The answer that is held, if any. -/
def answer? (answers : Answers) (index : Nat) (node : Term) : Option Bool :=
  (List.find? (fun entry => entry.1.1 = index && entry.1.2 = node) answers).map (·.2)

/-- Forgets an answer. -/
def forget (answers : Answers) (index : Nat) (node : Term) : Answers :=
  List.filter (fun entry => !(entry.1.1 = index && entry.1.2 = node)) answers

/-- Holds an answer in the place of any other. -/
def hold (answers : Answers) (index : Nat) (node : Term) (b : Bool) : Answers :=
  ((index, node), b) :: answers.forget index node

end Answers

/-- The state of a session. -/
structure Session where
  /-- How many declarations are in progress. -/
  depth : Nat
  declarations : Answers
  constraints : Answers
  patterns : KnownPatterns

namespace Session

/-- The state before the first question. -/
def initial : Session := ⟨0, [], [], []⟩

/-- How many answers are held. -/
def size (s : Session) : Nat := s.declarations.length + s.constraints.length

/-- Forgets all answers. -/
def clear (s : Session) : Session := { s with declarations := [], constraints := [] }

/-- Begins with a declaration at a node: `true` stands for its answer. -/
def enter (s : Session) (index : Nat) (node : Term) : Session :=
  { s with
    depth := s.depth + 1
    declarations := s.declarations.hold index node true }

/-- Ends with a declaration at a node that has an answer. -/
def settle (s : Session) (index : Nat) (node : Term) (b : Bool) : Session :=
  { s with
    depth := s.depth - 1
    declarations := s.declarations.hold index node b }

/-- Ends with a declaration at a node that has none. -/
def abandon (s : Session) (index : Nat) (node : Term) : Session :=
  { s with
    depth := s.depth - 1
    declarations := s.declarations.forget index node }

/-- Holds the answer of a constraint at a node. -/
def record (s : Session) (index : Nat) (node : Term) (b : Bool) : Session :=
  { s with constraints := s.constraints.hold index node b }

end Session

/-- A computation in a session: it may end with a result or a failure, and with a state in either
case; or it may not end. -/
abbrev Evaluation (α : Type) := ExceptT Failure (StateT Session Option) α

namespace Evaluation

/-- The computation that does not end. -/
def unending {α : Type} : Evaluation α := fun _ => none

/-- The computation that fails. -/
def fail {α : Type} (failure : Failure) : Evaluation α := throw failure

/-- The result of a step that cannot change the state. -/
def ofExcept {α : Type} : Except Failure α → Evaluation α
  | .ok a => pure a
  | .error f => fail f

/-- A failure if a feature is asked for that is not supported. -/
def rejectIf (asked : Bool) (feature : Feature) : Evaluation Unit :=
  if asked then fail (.notImplemented feature) else pure ()

end Evaluation

end ShEx
