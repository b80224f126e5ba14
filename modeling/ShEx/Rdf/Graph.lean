import ShEx.Rdf.Term

/-!
# RDF graphs

A graph is a set of triples.  It is held as a list without repetition, and inserting a triple
that is there already changes nothing.

The order in which triples are met is not part of the set.  It is a value of its own, a `Listing`
of the graph: one order for the triples with a given subject, one for those with a given object
and one for those with a given predicate, all of them rearrangements of what the graph holds.
What walks along arcs takes a listing, so that two orders of one graph can be compared.
-/

set_option autoImplicit false

namespace ShEx.Rdf

/-- One statement of a graph. -/
structure Triple where
  subject : Resource
  predicate : Iri
  object : Term
deriving DecidableEq, Inhabited

/-- A set of triples, in the order of their first insertion. -/
structure Graph where
  triples : List Triple
  nodup : triples.Nodup

namespace Graph

/-- The graph without triples. -/
def empty : Graph := ⟨[], List.nodup_nil⟩

/-- The graph with one more triple; a triple it holds already changes nothing. -/
def insert (g : Graph) (t : Triple) : Graph :=
  if h : t ∈ g.triples then g
  else ⟨g.triples ++ [t], by
    rw [List.nodup_append]
    refine ⟨g.nodup, by simp, ?_⟩
    intro a ha b hb
    simp only [List.mem_singleton] at hb
    subst hb
    exact fun e => h (e ▸ ha)⟩

/-- The graph of the triples of a list. -/
def ofList (triples : List Triple) : Graph := triples.foldl insert empty

/-- The triples with a given subject. -/
def withSubject (g : Graph) (s : Resource) : List Triple :=
  g.triples.filter fun t => decide (t.subject = s)

/-- The triples with a given object. -/
def withObject (g : Graph) (o : Term) : List Triple :=
  g.triples.filter fun t => decide (t.object = o)

/-- The triples with a given predicate. -/
def withPredicate (g : Graph) (p : Iri) : List Triple :=
  g.triples.filter fun t => decide (t.predicate = p)

/-- An order of the triples of a graph around each of its nodes and along each of its
predicates. -/
structure Listing (g : Graph) where
  outgoing : Resource → List Triple
  incoming : Term → List Triple
  along : Iri → List Triple
  outgoing_perm : ∀ s, (outgoing s).Perm (g.withSubject s)
  incoming_perm : ∀ o, (incoming o).Perm (g.withObject o)
  along_perm : ∀ p, (along p).Perm (g.withPredicate p)

/-- The order in which the triples were inserted. -/
def asInserted (g : Graph) : g.Listing where
  outgoing := g.withSubject
  incoming := g.withObject
  along := g.withPredicate
  outgoing_perm _ := .refl _
  incoming_perm _ := .refl _
  along_perm _ := .refl _

end Graph

end ShEx.Rdf
