import ShEx.Expression.Basic
import ShEx.Rdf.Graph

/-!
# Shape maps

A shape map says which nodes of a graph are asked about which shapes.  An association names a node,
or selects nodes by a triple pattern with the nodes in one of its places; resolved on a graph, it
gives one pair for each triple that fits the pattern.
-/

set_option autoImplicit false

namespace ShEx

open ShEx.Rdf

/-- What a node is asked about: the start expression, or the declaration with a label. -/
inductive ShapeTarget where
  | start
  | label (label : Label)
deriving DecidableEq, Inhabited

/-- The label of a target that has one. -/
def ShapeTarget.label? : ShapeTarget → Option Label
  | .start => none
  | .label l => some l

/-- The written form of a target. -/
def ShapeTarget.written : ShapeTarget → String
  | .start => "START"
  | .label l => l.written

/-- A place of a triple pattern: anything, or one term. -/
inductive PatternTerm where
  | wildcard
  | term (term : Term)
deriving DecidableEq, Inhabited

/-- Does a term fit a place of a pattern? -/
def PatternTerm.admits (t : Term) : PatternTerm → Bool
  | .wildcard => true
  | .term expected => expected = t

/-- Which nodes an association is about. -/
inductive NodeSelector where
  | node (node : Term)
  /-- The subjects of the triples with a predicate and an object that fits. -/
  | focusSubject (predicate : Iri) (object : PatternTerm)
  /-- The objects of the triples with a subject that fits and a predicate. -/
  | focusObject (subject : PatternTerm) (predicate : Iri)
deriving DecidableEq, Inhabited

/-- Nodes, and what they are asked about. -/
structure Association where
  selector : NodeSelector
  target : ShapeTarget
deriving DecidableEq, Inhabited

/-- A node, and what it is asked about. -/
structure FixedAssociation where
  node : Term
  target : ShapeTarget
deriving DecidableEq, Inhabited

/-- A list of associations. -/
abbrev ShapeMap := List Association

/-- The nodes of a graph that a selector gives, one for each triple that fits, in the order of a
listing. -/
def NodeSelector.nodes {g : Graph} (listing : g.Listing) : NodeSelector → List Term
  | .node n => [n]
  | .focusSubject predicate object =>
    ((listing.along predicate).filter fun t => object.admits t.object).map (·.subject.toTerm)
  | .focusObject subject predicate =>
    ((listing.along predicate).filter fun t => subject.admits t.subject.toTerm).map (·.object)

/-- The pairs that an association gives on a graph. -/
def Association.resolve {g : Graph} (listing : g.Listing) (a : Association) :
    List FixedAssociation :=
  (a.selector.nodes listing).map fun n => ⟨n, a.target⟩

/-- The pairs that a shape map gives on a graph, association by association. -/
def ShapeMap.resolve {g : Graph} (listing : g.Listing) (map : ShapeMap) : List FixedAssociation :=
  map.flatMap (·.resolve listing)

end ShEx
