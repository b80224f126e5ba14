import Mathlib.Combinatorics.Pigeonhole
import Mathlib.Data.List.Nodup
import ShEx.Proofs.Expansion
import ShEx.Proofs.Nesting
import ShEx.Proofs.Redeclaration

/-!
# How deep evaluations nest

Between two declarations that begin, an evaluation goes down the expression of a declaration, and
from a shape on into the value expressions of the triple expressions that it refers to (`Embeds`).
So the expressions and the nodes that it can come to are finitely many, and as many declarations are
in progress as there are pairs of a declaration and a node at most (`Underway`).  An evaluation that
nests deeper than there are expressions, nodes and numbers of declarations in progress has come to
the same expression at the same node with no new declaration (`exists_repeat`), and then it comes
back there for ever: `nestingBound` is enough for every evaluation that does not
(`exists_evaluate_of_closed`).
-/

set_option autoImplicit false

namespace ShEx

open ShEx.Rdf

/-! ## What a schema makes an expression ask for -/

namespace Schema

/-- The evaluation of an expression can ask for another one with no new declaration in progress: one
directly inside it or, if it is a shape, a value expression of a labelled triple expression that the
triple expression of the shape refers to. -/
inductive Embeds (s : Schema) : ShapeExpr → ShapeExpr → Prop
  | child {c e : ShapeExpr} (h : c ∈ e.children) : Embeds s e c
  | expanded {shape : Shape} {te te₁ te' : TripleExpr} {label : Label} {t : TripleConstraint}
      {v : ShapeExpr} (hte : shape.expression = some te) (hlead : s.LeadsTo te te₁)
      (hl : label ∈ te₁.labels) (hlabel : s.tripleExpression? label = some te')
      (ht : t ∈ te'.triples) (hv : t.value = some v) : Embeds s (.shape shape) v

/-- The value expressions of what the triple expression of a shape leads to are inside the shape. -/
theorem Embeds.of_leaf {s : Schema} {shape : Shape} {te te' : TripleExpr} {t : TripleConstraint}
    {v : ShapeExpr} (hte : shape.expression = some te) (hlead : s.LeadsTo te te')
    (ht : t ∈ te'.triples) (hv : t.value = some v) : s.Embeds (.shape shape) v := by
  rcases Relation.ReflTransGen.cases_tail hlead with rfl | ⟨te₁, hlead, label, hl, hlabel⟩
  · refine .child (List.mem_filterMap.2 ⟨t, ?_, hv⟩)
    rw [Shape.triples, hte]
    exact ht
  · exact .expanded hte hlead hl hlabel ht hv

/-- The value expressions of the slots of a shape are embedded in it. -/
theorem ExpandsTo.embeds {s : Schema} {shape : Shape} {f : Formula} {slots : List TripleConstraint}
    (h : s.ExpandsTo shape.expression f slots) {t : TripleConstraint} (ht : t ∈ slots)
    {v : ShapeExpr} (hv : t.value = some v) : s.Embeds (.shape shape) v := by
  cases hte : shape.expression with
  | none =>
    rw [hte] at h
    rw [h.2] at ht
    cases ht
  | some te =>
    rw [hte] at h
    rcases Expands.slots h t ht with ht | ⟨te', hlead, ht⟩
    · cases ht
    · exact .of_leaf hte hlead ht hv

/-- Every shape expression that stands somewhere in a schema. -/
def expressions (s : Schema) : List ShapeExpr :=
  (s.declarations.flatMap fun d => d.expression.parts) ++
    (s.tripleExpressions.flatMap fun entry => valueParts entry.2.triples) ++
    s.start.elim [] ShapeExpr.parts

/-- An expression stands in a schema if it is part of a declaration, of a value expression of a
labelled triple expression or of the start expression. -/
theorem mem_expressions {s : Schema} {e : ShapeExpr} : e ∈ s.expressions ↔
    (∃ d ∈ s.declarations, e ∈ d.expression.parts) ∨
      (∃ entry ∈ s.tripleExpressions, e ∈ valueParts entry.2.triples) ∨
        ∃ start, s.start = some start ∧ e ∈ start.parts := by
  have hstart : e ∈ s.start.elim [] ShapeExpr.parts ↔ ∃ start, s.start = some start ∧
      e ∈ start.parts := by
    cases s.start with
    | none => simp
    | some start => simp
  rw [expressions, List.append_assoc, List.mem_append, List.mem_append, List.mem_flatMap,
    List.mem_flatMap, hstart]

/-- The number of shape expressions in a schema counts them. -/
theorem length_expressions (s : Schema) : s.expressions.length = s.expressionCount := by
  have hdecl : (s.declarations.flatMap fun d => d.expression.parts).length =
      (s.declarations.map fun d => d.expression.size).foldr (· + ·) 0 := by
    induction s.declarations with
    | nil => rfl
    | cons d ds ih =>
      rw [List.flatMap_cons, List.length_append, ih, ShapeExpr.length_parts]
      rfl
  have htriple : (s.tripleExpressions.flatMap fun entry => valueParts entry.2.triples).length =
      (s.tripleExpressions.map fun entry => entry.2.size).foldr (· + ·) 0 := by
    induction s.tripleExpressions with
    | nil => rfl
    | cons entry entries ih =>
      rw [List.flatMap_cons, List.length_append, ih,
        entry.2.length_valueParts fun _ _ v _ => v.length_parts]
      rfl
  have hstart : (s.start.elim [] ShapeExpr.parts).length = s.start.elim 0 ShapeExpr.size := by
    cases s.start with
    | none => rfl
    | some e => exact e.length_parts
  rw [expressions, List.length_append, List.length_append, hdecl, htriple, hstart,
    expressionCount]

/-- What a label stands for is one of the labelled triple expressions. -/
theorem mem_of_tripleExpression? {s : Schema} {label : Label} {te : TripleExpr}
    (h : s.tripleExpression? label = some te) : (label, te) ∈ s.tripleExpressions := by
  unfold tripleExpression? at h
  generalize s.tripleExpressions = entries at h ⊢
  induction entries with
  | nil => cases h
  | cons entry entries ih =>
    rw [List.lookup_cons] at h
    split at h
    · next he =>
      cases h
      rw [beq_iff_eq.1 he]
      exact List.mem_cons_self
    · exact List.mem_cons_of_mem _ (ih h)

/-- What a label is found to stand for is a declaration, and its number is one of the schema's. -/
theorem mem_of_find? {s : Schema} {label : Label} {index : Nat} {d : Declaration}
    (h : s.find? label = some (index, d)) : d ∈ s.declarations ∧ index < s.size := by
  obtain ⟨-, hd⟩ := find?_eq_some_iff.1 h
  obtain ⟨hlt, he⟩ := List.getElem?_eq_some_iff.1 hd
  exact ⟨he ▸ List.getElem_mem hlt, hlt⟩

/-- A label of a triple expression is unknown if none of the labelled ones has it. -/
theorem tripleExpression?_eq_none_iff {s : Schema} {label : Label} :
    s.tripleExpression? label = none ↔ ∀ entry ∈ s.tripleExpressions, entry.1 ≠ label := by
  rw [tripleExpression?, List.lookup_eq_none_iff]
  refine forall₂_congr fun entry _ => ?_
  rw [bne_iff_ne, ne_comm]

/-- A value expression of a labelled triple expression stands in the schema. -/
theorem value_mem_expressions {s : Schema} {label : Label} {te : TripleExpr}
    {t : TripleConstraint} {v : ShapeExpr} (h : s.tripleExpression? label = some te)
    (ht : t ∈ te.triples) (hv : t.value = some v) : v ∈ s.expressions := by
  have hmem : v ∈ te.triples.filterMap (·.value) := List.mem_filterMap.2 ⟨t, ht, hv⟩
  exact mem_expressions.2 (.inr (.inl ⟨(label, te), mem_of_tripleExpression? h,
    List.mem_flatMap.2 ⟨v, hmem, v.mem_parts_self⟩⟩))

/-- What is directly inside an expression of a schema stands in the schema. -/
theorem child_mem_expressions {s : Schema} {c e : ShapeExpr} (he : e ∈ s.expressions)
    (hc : c ∈ e.children) : c ∈ s.expressions := by
  rw [mem_expressions] at he ⊢
  rcases he with ⟨d, hd, he⟩ | ⟨entry, hentry, he⟩ | ⟨start, hstart, he⟩
  · exact .inl ⟨d, hd, ShapeExpr.children_mem_parts he hc⟩
  · obtain ⟨v, hv, he⟩ := List.mem_flatMap.1 he
    have hmem := List.mem_flatMap.2 ⟨v, hv, ShapeExpr.children_mem_parts he hc⟩
    exact .inr (.inl ⟨entry, hentry, hmem⟩)
  · exact .inr (.inr ⟨start, hstart, ShapeExpr.children_mem_parts he hc⟩)

/-- All that the evaluation of one of some expressions can come to is among them. -/
structure Closed (s : Schema) (all : List ShapeExpr) : Prop where
  embeds : ∀ e c, s.Embeds e c → e ∈ all → c ∈ all
  declared : ∀ d ∈ s.declarations, d.expression ∈ all

/-- What is declared stands in the schema. -/
theorem declared_mem_expressions {s : Schema} {d : Declaration} (h : d ∈ s.declarations) :
    d.expression ∈ s.expressions :=
  mem_expressions.2 (.inl ⟨d, h, d.expression.mem_parts_self⟩)

/-- The start expression of a schema stands in it. -/
theorem start_mem_expressions {s : Schema} {e : ShapeExpr} (h : s.start = some e) :
    e ∈ s.expressions :=
  mem_expressions.2 (.inr (.inr ⟨e, h, e.mem_parts_self⟩))

/-- Evaluating what stands in a schema comes to nothing else, the value expressions of labelled
triple expressions included. -/
theorem closed_expressions (s : Schema) : s.Closed s.expressions where
  embeds e c h he := by
    cases h with
    | child hc => exact child_mem_expressions he hc
    | expanded _ _ _ hlabel ht hv => exact value_mem_expressions hlabel ht hv
  declared _ := declared_mem_expressions

/-- An expression from outside adds its parts. -/
theorem closed_parts (s : Schema) (outside : ShapeExpr) :
    s.Closed (outside.parts ++ s.expressions) where
  embeds e c h he := by
    rw [List.mem_append] at he ⊢
    cases h with
    | child hc =>
      exact he.imp (fun he => ShapeExpr.children_mem_parts he hc)
        fun he => child_mem_expressions he hc
    | expanded _ _ _ hlabel ht hv => exact .inr (value_mem_expressions hlabel ht hv)
  declared d hd := List.mem_append_right _ (declared_mem_expressions hd)

end Schema

namespace Setting

variable {w : Setting}

/-! ## Where questions lead -/

/-- The nodes at the ends of the arcs of the graph. -/
def arcEnds (w : Setting) : List Term :=
  w.graph.triples.map (·.object) ++ w.graph.triples.map (·.subject.toTerm)

/-- Every triple has two ends. -/
theorem length_arcEnds : w.arcEnds.length = 2 * w.graph.triples.length := by
  rw [arcEnds, List.length_append, List.length_map, List.length_map, Nat.two_mul]

/-- The other end of an arc is a node of the graph. -/
theorem neighbour_mem_arcEnds {slots : List TripleConstraint} {node : Term} {arc : Arc}
    (h : arc ∈ w.arcsOf slots node) : arc.neighbour ∈ w.arcEnds := by
  unfold arcsOf at h
  rcases List.mem_append.1 h with h | h
  · refine List.mem_append_left _ ?_
    unfold outgoingArcs at h
    split at h
    · cases h
    · next r hr =>
      obtain ⟨t, ht, rfl⟩ := List.mem_map.1 h
      have ht := (w.listing.outgoing_perm r).subset ht
      exact List.mem_map.2 ⟨t, List.mem_of_mem_filter ht, rfl⟩
  · refine List.mem_append_right _ ?_
    split at h
    · obtain ⟨t, ht, rfl⟩ := List.mem_map.1 h
      have ht := (w.listing.incoming_perm node).subset ht
      exact List.mem_map.2 ⟨t, List.mem_of_mem_filter ht, rfl⟩
    · cases h

/-- A compound expression asks for what it embeds, at its node or at the end of an arc. -/
theorem embeds_of_mentions {e e' : ShapeExpr} {node node' : Term} (hc : e.isCompound)
    (h : (w.inquiry e node).Mentions e' node') :
    w.schema.Embeds e e' ∧ (node' = node ∨ node' ∈ w.arcEnds) := by
  cases e with
  | or operands =>
    obtain ⟨he, hn⟩ := mentions_anyInquiry h
    exact ⟨.child he, .inl hn⟩
  | and operands =>
    obtain ⟨he, hn⟩ := mentions_allInquiry h
    exact ⟨.child he, .inl hn⟩
  | not operand =>
    rcases Inquiry.mentions_bind h with h | ⟨b, h⟩
    · rcases h with ⟨rfl, rfl⟩ | ⟨_, h⟩
      · exact ⟨.child (List.mem_singleton.2 rfl), .inl rfl⟩
      · exact h.elim
    · exact h.elim
  | shape shape =>
    obtain ⟨f, slots, hcomp, arc, harc, t, ht, -, hv, rfl⟩ := mentions_shapeInquiry h
    refine ⟨?_, .inr (neighbour_mem_arcEnds harc)⟩
    exact (Schema.expandsTo_of_compile hcomp).embeds ht hv
  | external => exact h.elim
  | node c => cases hc
  | ref label => cases hc

/-- All that an evaluation comes to is among the expressions that the first one can come to. -/
theorem Amid.mem_closed {all : List ShapeExpr} (hall : w.schema.Closed all) {q₀ q : Question}
    {begun : List (Nat × Term)} (h : w.Amid q₀ begun q) (h₀ : q₀.expression ∈ all) :
    q.expression ∈ all := by
  induction h with
  | start => exact h₀
  | compound _ hc hq ih => exact hall.embeds _ _ (embeds_of_mentions hc hq.mentions).1 ih
  | declaration _ he _ => exact hall.declared _ (Schema.mem_of_find? he.known).1

/-- The declarations that have begun since a state: as many pairs of a declaration and a node, all
answered. -/
structure Underway (w : Setting) (nodes : List Term) (s t : Session) (begun : List (Nat × Term)) :
    Prop where
  nodup : begun.Nodup
  known : ∀ p ∈ begun, p.1 < w.schema.size ∧ p.2 ∈ nodes
  answered : ∀ p ∈ begun, ∃ b, t.declarations.answer? p.1 p.2 = some b
  depth_eq : t.depth = s.depth + begun.length

/-- Different pairs of a declaration and one of some nodes are no more than there are declarations
and nodes. -/
theorem length_le_of_known {nodes : List Term} {pairs : List (Nat × Term)} (hnodup : pairs.Nodup)
    (hknown : ∀ p ∈ pairs, p.1 < w.schema.size ∧ p.2 ∈ nodes) :
    pairs.length ≤ w.schema.size * nodes.length := by
  have hsub : pairs ⊆ List.range w.schema.size ×ˢ nodes := by
    intro p hp
    obtain ⟨hlt, hn⟩ := hknown p hp
    exact List.pair_mem_product.2 ⟨List.mem_range.2 hlt, hn⟩
  have hle := (List.subperm_of_subset hnodup hsub).length_le
  rwa [List.length_product, List.length_range] at hle

/-- No more declarations are in progress than there are pairs of a declaration and a node, as none
of them is in progress twice. -/
theorem Underway.length_le {nodes : List Term} {s t : Session} {begun : List (Nat × Term)}
    (h : w.Underway nodes s t begun) : begun.length ≤ w.schema.size * nodes.length :=
  length_le_of_known h.nodup h.known

/-- A question keeps to the expressions and nodes at hand, and to as many declarations in progress
as there are at most. -/
structure Confined (w : Setting) (all : List ShapeExpr) (nodes : List Term) (s : Session)
    (q : Question) : Prop where
  expression : q.expression ∈ all
  node : q.node ∈ nodes
  underway : ∃ begun, w.Underway nodes s q.state begun

/-- What a confined question asks is confined. -/
theorem Confined.asks {all : List ShapeExpr} {nodes : List Term} {s : Session} {q q' : Question}
    (h : w.Confined all nodes s q) (hall : w.schema.Closed all)
    (hnodes : ∀ n ∈ w.arcEnds, n ∈ nodes) (ha : w.Asks q q') : w.Confined all nodes s q' := by
  obtain ⟨he, hn, begun, hb⟩ := h
  cases ha with
  | compound hc hq =>
    obtain ⟨hemb, hnode⟩ := embeds_of_mentions hc hq.mentions
    obtain ⟨hw, hd⟩ := hq.keeps
    refine ⟨hall.embeds _ _ hemb he, hnode.elim (fun h => h ▸ hn) (hnodes _), begun, hb.nodup,
      hb.known, ?_, ?_⟩
    · intro p hp
      obtain ⟨b, hpb⟩ := hb.answered p hp
      exact ⟨b, hw.declarations _ _ _ hpb⟩
    · exact hd.trans hb.depth_eq
  | @declaration label node t index d hent =>
    obtain ⟨hd, hlt⟩ := Schema.mem_of_find? hent.known
    refine ⟨hall.declared d hd, hn, (index, node) :: begun, ?_, ?_, ?_, ?_⟩
    · refine List.nodup_cons.2 ⟨fun hmem => ?_, hb.nodup⟩
      obtain ⟨b, hpb⟩ := hb.answered _ hmem
      rw [hent.unanswered] at hpb
      cases hpb
    · intro p hp
      rcases List.mem_cons.1 hp with rfl | hp
      · exact ⟨hlt, hn⟩
      · exact hb.known p hp
    · intro p hp
      rcases List.mem_cons.1 hp with rfl | hp
      · refine ⟨true, ?_⟩
        rw [Session.answer?_enter, if_pos ⟨rfl, rfl⟩]
      · obtain ⟨b, hpb⟩ := hb.answered p hp
        exact ⟨b, (Session.within_enter hent.unanswered).declarations _ _ _ hpb⟩
    · show t.depth + 1 = s.depth + (begun.length + 1)
      rw [hb.depth_eq, Nat.add_assoc]

/-! ## Repetition -/

/-- An evaluation that has no nesting left is the first of a chain of questions, one longer than the
nesting it was given. -/
theorem exists_chain_of_none {n : Nat} {q : Question}
    (h : w.evaluate n q.expression q.node q.state = none) :
    ∃ f : Nat → Question, f 0 = q ∧ ∀ i < n, w.Asks (f i) (f (i + 1)) := by
  induction n generalizing q with
  | zero => exact ⟨fun _ => q, rfl, nofun⟩
  | succ n ih =>
    obtain ⟨q', ha, hn⟩ := exists_asks_of_none h
    obtain ⟨f, hf, hchain⟩ := ih hn
    refine ⟨fun i => i.casesOn q f, rfl, fun i hi => ?_⟩
    cases i with
    | zero =>
      show w.Asks q (f 0)
      rw [hf]
      exact ha
    | succ i => exact hchain i (Nat.lt_of_succ_lt_succ hi)

/-- A question in a chain leads to every later one. -/
theorem reflTransGen_of_chain {f : Nat → Question} {n : Nat}
    (hf : ∀ i < n, w.Asks (f i) (f (i + 1))) {i j : Nat} (hij : i ≤ j) (hj : j ≤ n) :
    Relation.ReflTransGen w.Asks (f i) (f j) := by
  induction j with
  | zero =>
    obtain rfl : i = 0 := Nat.le_zero.1 hij
    exact .refl
  | succ j ih =>
    rcases Nat.lt_or_eq_of_le hij with hlt | rfl
    · exact (ih (Nat.le_of_lt_succ hlt) (Nat.le_of_succ_le hj)).tail (hf j hj)
    · exact .refl

/-- A chain of confined questions that is longer than there are expressions, nodes and numbers of
declarations in progress comes to the same ones twice. -/
theorem exists_repeat {all : List ShapeExpr} {nodes : List Term} {s : Session}
    {f : Nat → Question} {n : Nat} (hf : ∀ i ≤ n, w.Confined all nodes s (f i))
    (hn : (w.schema.size * nodes.length + 1) * (all.length * nodes.length) ≤ n) :
    ∃ i j, i < j ∧ j ≤ n ∧ (f i).expression = (f j).expression ∧ (f i).node = (f j).node ∧
      (f i).state.depth = (f j).state.depth := by
  classical
  let places : List (Nat × ShapeExpr × Term) :=
    List.range (w.schema.size * nodes.length + 1) ×ˢ all ×ˢ nodes
  let place (q : Question) : Nat × ShapeExpr × Term :=
    (q.state.depth - s.depth, q.expression, q.node)
  have hmaps : ∀ i ∈ Finset.range (n + 1), place (f i) ∈ places.toFinset := by
    intro i hi
    obtain ⟨he, hnode, begun, hb⟩ := hf i (Nat.le_of_lt_succ (Finset.mem_range.1 hi))
    have hlen := hb.length_le
    have hdepth := hb.depth_eq
    refine List.mem_toFinset.2 (List.pair_mem_product.2 ⟨List.mem_range.2 ?_,
      List.pair_mem_product.2 ⟨he, hnode⟩⟩)
    omega
  have hcard : places.toFinset.card < (Finset.range (n + 1)).card := by
    rw [Finset.card_range]
    refine Nat.lt_succ_of_le ((List.toFinset_card_le _).trans (le_trans (le_of_eq ?_) hn))
    rw [List.length_product, List.length_product, List.length_range]
  obtain ⟨i, hi, j, hj, hne, heq⟩ :=
    Finset.exists_ne_map_eq_of_card_lt_of_maps_to hcard hmaps
  -- The depths are those since `s`, and the later of the two questions comes second.
  have hsame : ∀ {i j : Nat}, i ∈ Finset.range (n + 1) → j ∈ Finset.range (n + 1) →
      place (f i) = place (f j) → i < j →
      ∃ i j, i < j ∧ j ≤ n ∧ (f i).expression = (f j).expression ∧ (f i).node = (f j).node ∧
        (f i).state.depth = (f j).state.depth := by
    intro i j hi hj heq hlt
    obtain ⟨-, -, begun, hb⟩ := hf i (Nat.le_of_lt_succ (Finset.mem_range.1 hi))
    obtain ⟨-, -, begun', hb'⟩ := hf j (Nat.le_of_lt_succ (Finset.mem_range.1 hj))
    have h1 := hb.depth_eq
    have h2 := hb'.depth_eq
    simp only [place, Prod.mk.injEq] at heq
    obtain ⟨hdepth, he, hnode⟩ := heq
    exact ⟨i, j, hlt, Nat.le_of_lt_succ (Finset.mem_range.1 hj), he, hnode, by omega⟩
  rcases Nat.lt_or_gt_of_ne hne with hlt | hlt
  · exact hsame hi hj heq hlt
  · exact hsame hj hi heq.symm hlt

/-- With the nesting of `nestingBound` every evaluation returns that does not come back to a
question. -/
theorem exists_evaluate_of_closed {all : List ShapeExpr} {outside : Nat}
    (hall : w.schema.Closed all) (hlen : all.length ≤ w.schema.expressionCount + outside)
    {e : ShapeExpr} (he : e ∈ all) {node : Term} {s : Session}
    (h : ¬w.ComesBack ⟨e, node, s⟩) :
    ∃ r t, w.evaluate (w.nestingBound outside) e node s = some (r, t) := by
  cases hn : w.evaluate (w.nestingBound outside) e node s with
  | some result => exact ⟨result.1, result.2, rfl⟩
  | none =>
    refine absurd ?_ h
    obtain ⟨f, hf, hchain⟩ := exists_chain_of_none (q := ⟨e, node, s⟩) hn
    let nodes := node :: w.arcEnds
    have hnodes : nodes.length = 2 * w.graph.triples.length + 1 := by
      rw [List.length_cons, length_arcEnds]
    have hconf : ∀ i ≤ w.nestingBound outside, w.Confined all nodes s (f i) := by
      intro i hi
      induction i with
      | zero =>
        rw [hf]
        exact ⟨he, List.mem_cons_self, [], List.nodup_nil, nofun, nofun, rfl⟩
      | succ i ih =>
        exact (ih (Nat.le_of_succ_le hi)).asks hall (fun _ hn => List.mem_cons_of_mem _ hn)
          (hchain i hi)
    have hbound : (w.schema.size * nodes.length + 1) * (all.length * nodes.length) ≤
        w.nestingBound outside := by
      unfold nestingBound
      dsimp only
      rw [hnodes]
      refine Nat.mul_le_mul_left _ (Nat.le_succ_of_le ?_)
      exact Nat.mul_le_mul_right _ hlen
    obtain ⟨i, j, hij, hj, he, hnode, hd⟩ := exists_repeat hconf hbound
    have hfirst := reflTransGen_of_chain hchain (Nat.zero_le i) (hij.le.trans hj)
    have hsecond := reflTransGen_of_chain hchain hij hj
    rw [hf] at hfirst
    exact comesBack_of_repeat hfirst
      (.head' (hchain i (Nat.lt_of_lt_of_le hij hj)) hsecond) he hnode hd.symm

end Setting

end ShEx
