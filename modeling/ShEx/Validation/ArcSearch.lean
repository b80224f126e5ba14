import ShEx.Number.Digits
import ShEx.Rdf.Graph
import ShEx.Validation.Satisfaction

/-!
# Sharing out arcs

Each arc of a node goes to one of the slots it is eligible for, or, where the shape allows further
arcs, to none of them.  The shape holds if some assignment satisfies its formula.

Arcs with one option only are assigned at once.  The assignments of the others are tried one after
the other, unless there are at least as many as the limit.
-/

set_option autoImplicit false

namespace ShEx

open ShEx.Rdf

/-- An arc of a node, seen from the node. -/
structure Arc where
  inverse : Bool
  predicate : Iri
  neighbour : Term
deriving DecidableEq

/-- The arcs that leave a node. -/
def outgoingArcs {g : Graph} (listing : g.Listing) (node : Term) : List Arc :=
  match node.resource? with
  | none => []
  | some r => (listing.outgoing r).map fun t => ⟨false, t.predicate, t.object⟩

/-- The arcs that reach a node. -/
def incomingArcs {g : Graph} (listing : g.Listing) (node : Term) : List Arc :=
  (listing.incoming node).map fun t => ⟨true, t.predicate, t.subject.toTerm⟩

/-- Where an arc can go: into a slot, or beside all of them. -/
inductive Choice where
  | slot (index : Nat)
  | extra
deriving DecidableEq

/-- Does a slot speak about arcs with the direction and predicate of this one? -/
def TripleConstraint.concerns (t : TripleConstraint) (arc : Arc) : Bool :=
  t.inverse = arc.inverse && t.predicate = arc.predicate

/-- The predicates of outgoing arcs that slots speak about. -/
def mentioned (slots : List TripleConstraint) : List Iri :=
  (slots.filter fun t => !t.inverse).map (·.predicate)

/-- May outgoing arcs with a predicate stand beside all slots? -/
def Shape.allowsExtra (s : Shape) (slots : List TripleConstraint) (predicate : Iri) : Bool :=
  s.extra.contains predicate || (!s.closed && !(mentioned slots).contains predicate)

/-- The counts with one more arc in the chosen slot. -/
def addArc (counts : List Nat) : Choice → List Nat
  | .slot i => counts.modify i (· + 1)
  | .extra => counts

/-- The counts of the arcs that have one option only. -/
def forcedCounts (slots : Nat) (items : List (List Choice)) : List Nat :=
  items.foldl
    (fun counts options =>
      match options with
      | [choice] => addArc counts choice
      | _ => counts)
    (List.replicate slots 0)

/-- The options of the arcs that do not have one option only. -/
def openChoices (items : List (List Choice)) : List (List Choice) :=
  items.filter fun options => options.length != 1

/-- Does some assignment of the arcs with these options, added to the counts, satisfy the
formula? -/
def assignable (f : Formula) (slots : List TripleConstraint) :
    List (List Choice) → List Nat → Bool
  | [], counts => (f.evaluate slots counts).holds
  | options :: rest, counts =>
    options.any fun choice => assignable f slots rest (addArc counts choice)

/-- The largest complexity that is reported. -/
def complexityCap : Nat := Number.twoTo 64 - 1

/-- The product of two numbers, or the largest complexity if it is larger. -/
def cappedMul (a b : Nat) : Nat := min (a * b) complexityCap

/-- The number of assignments, as far as it is reported. -/
def complexity (choices : List (List Choice)) : Nat :=
  choices.foldl (fun product options => cappedMul product options.length) 1

/-- Does some assignment of all arcs satisfy the formula?  It is not tried if there are too many
to choose from. -/
def decideAssignment (limit : Nat) (f : Formula) (slots : List TripleConstraint)
    (items : List (List Choice)) : Except Failure Bool :=
  let choices := openChoices items
  if !choices.isEmpty && limit ≤ complexity choices then
    .error (.searchSpaceExceeded (complexity choices) limit)
  else .ok (assignable f slots choices (forcedCounts slots.length items))

end ShEx
