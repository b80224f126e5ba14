import Mathlib.Data.List.Basic
import Mathlib.Logic.Relation
import ShEx.Validation.Evaluation

/-!
# The parts of expressions

The recursion of shape expressions passes through shapes, groups and triple constraints.  For a
triple expression all that matters here are the triple constraints at its leaves (`triples`) and the
labels it refers to (`labels`): what a walk collects from it is what it collects from those.  So two
induction principles take the place of the mutual recursion (`TripleExpr.memberInduction`,
`ShapeExpr.childInduction`).
-/

set_option autoImplicit false

namespace ShEx

open ShEx.Rdf

/-! ## Leaves of triple expressions -/

mutual

/-- The triple constraints of a triple expression, in reading order, references left aside. -/
def TripleExpr.triples : TripleExpr → List TripleConstraint
  | .eachOf g => g.triples
  | .oneOf g => g.triples
  | .triple t => [t]
  | .ref _ => []

/-- The triple constraints of the members of a group. -/
def TripleGroup.triples : TripleGroup → List TripleConstraint
  | ⟨members, _, _⟩ => TripleExpr.triplesOfAll members

/-- The triple constraints of several triple expressions. -/
def TripleExpr.triplesOfAll : List TripleExpr → List TripleConstraint
  | [] => []
  | e :: es => e.triples ++ TripleExpr.triplesOfAll es

end

mutual

/-- The labels that a triple expression refers to, those of value expressions left aside. -/
def TripleExpr.labels : TripleExpr → List Label
  | .eachOf g => g.labels
  | .oneOf g => g.labels
  | .triple _ => []
  | .ref label => [label]

/-- The labels that the members of a group refer to. -/
def TripleGroup.labels : TripleGroup → List Label
  | ⟨members, _, _⟩ => TripleExpr.labelsOfAll members

/-- The labels that several triple expressions refer to. -/
def TripleExpr.labelsOfAll : List TripleExpr → List Label
  | [] => []
  | e :: es => e.labels ++ TripleExpr.labelsOfAll es

end

/-- The triple constraints of a list are those of its members, in order. -/
theorem TripleExpr.triplesOfAll_eq (es : List TripleExpr) :
    TripleExpr.triplesOfAll es = es.flatMap TripleExpr.triples := by
  induction es with
  | nil => rfl
  | cons e es ih => rw [TripleExpr.triplesOfAll, ih, List.flatMap_cons]

/-- The labels of a list are those of its members, in order. -/
theorem TripleExpr.labelsOfAll_eq (es : List TripleExpr) :
    TripleExpr.labelsOfAll es = es.flatMap TripleExpr.labels := by
  induction es with
  | nil => rfl
  | cons e es ih => rw [TripleExpr.labelsOfAll, ih, List.flatMap_cons]

/-- The triple constraints of a group are those of its members, in order. -/
@[simp]
theorem TripleGroup.triples_eq (g : TripleGroup) :
    g.triples = g.members.flatMap TripleExpr.triples := by
  cases g
  exact TripleExpr.triplesOfAll_eq _

/-- The labels of a group are those of its members, in order. -/
@[simp]
theorem TripleGroup.labels_eq (g : TripleGroup) :
    g.labels = g.members.flatMap TripleExpr.labels := by
  cases g
  exact TripleExpr.labelsOfAll_eq _

/-- A label inside a member is a label inside the group. -/
theorem TripleGroup.labels_of_member {g : TripleGroup} {e : TripleExpr} (he : e ∈ g.members)
    {label : Label} (hl : label ∈ e.labels) : label ∈ g.labels := by
  rw [TripleGroup.labels_eq]
  exact List.mem_flatMap.2 ⟨e, he, hl⟩

/-- A triple constraint inside a member is one inside the group. -/
theorem TripleGroup.triples_of_member {g : TripleGroup} {e : TripleExpr} (he : e ∈ g.members)
    {t : TripleConstraint} (ht : t ∈ e.triples) : t ∈ g.triples := by
  rw [TripleGroup.triples_eq]
  exact List.mem_flatMap.2 ⟨e, he, ht⟩

/-- A member is smaller than its group. -/
theorem TripleGroup.sizeOf_member_lt {g : TripleGroup} {e : TripleExpr} (h : e ∈ g.members) :
    sizeOf e < sizeOf g := by
  cases g with
  | mk members cardinality acts =>
    have : sizeOf e < sizeOf members := List.sizeOf_lt_of_mem h
    rw [TripleGroup.mk.sizeOf_spec]
    omega

/-- Induction on a triple expression: what holds of a group if it holds of its members, of triple
constraints and of references holds of every triple expression. -/
theorem TripleExpr.memberInduction {motive : TripleExpr → Prop}
    (eachOf : ∀ g : TripleGroup, (∀ e ∈ g.members, motive e) → motive (.eachOf g))
    (oneOf : ∀ g : TripleGroup, (∀ e ∈ g.members, motive e) → motive (.oneOf g))
    (triple : ∀ t, motive (.triple t)) (ref : ∀ label, motive (.ref label)) :
    ∀ e, motive e
  | .eachOf g => eachOf g fun e _ => TripleExpr.memberInduction eachOf oneOf triple ref e
  | .oneOf g => oneOf g fun e _ => TripleExpr.memberInduction eachOf oneOf triple ref e
  | .triple t => triple t
  | .ref label => ref label
termination_by e => sizeOf e
decreasing_by
  all_goals
    have := TripleGroup.sizeOf_member_lt ‹_›
    simp only [TripleExpr.eachOf.sizeOf_spec, TripleExpr.oneOf.sizeOf_spec]
    omega

/-- The value expression of a leaf is smaller than the triple expression. -/
theorem TripleExpr.sizeOf_value_lt {te : TripleExpr} {t : TripleConstraint} {v : ShapeExpr}
    (ht : t ∈ te.triples) (hv : t.value = some v) : sizeOf v < sizeOf te := by
  induction te using TripleExpr.memberInduction with
  | eachOf g ih =>
    rw [TripleExpr.triples, TripleGroup.triples_eq, List.mem_flatMap] at ht
    obtain ⟨e, he, ht⟩ := ht
    have h1 := ih e he ht
    have h2 := TripleGroup.sizeOf_member_lt he
    rw [TripleExpr.eachOf.sizeOf_spec]
    omega
  | oneOf g ih =>
    rw [TripleExpr.triples, TripleGroup.triples_eq, List.mem_flatMap] at ht
    obtain ⟨e, he, ht⟩ := ht
    have h1 := ih e he ht
    have h2 := TripleGroup.sizeOf_member_lt he
    rw [TripleExpr.oneOf.sizeOf_spec]
    omega
  | triple t' =>
    rw [TripleExpr.triples, List.mem_singleton] at ht
    subst ht
    cases t with
    | mk predicate inverse value cardinality acts =>
      cases hv
      simp only [TripleExpr.triple.sizeOf_spec, TripleConstraint.mk.sizeOf_spec,
        Option.some.sizeOf_spec]
      omega
  | ref label => cases ht

/-! ## Direct parts of shape expressions -/

/-- The triple constraints at the leaves of a shape. -/
def Shape.triples (s : Shape) : List TripleConstraint := s.expression.elim [] TripleExpr.triples

/-- The shape expressions directly inside a shape expression: the operands, or the value expressions
of a shape. -/
def ShapeExpr.children : ShapeExpr → List ShapeExpr
  | .or operands => operands
  | .and operands => operands
  | .not operand => [operand]
  | .node _ => []
  | .shape s => s.triples.filterMap (·.value)
  | .external => []
  | .ref _ => []

/-- What is directly inside a shape expression is smaller, so recursion through it ends. -/
theorem ShapeExpr.sizeOf_child_lt {c e : ShapeExpr} (h : c ∈ e.children) :
    sizeOf c < sizeOf e := by
  cases e with
  | or operands =>
    have : sizeOf c < sizeOf operands := List.sizeOf_lt_of_mem h
    rw [ShapeExpr.or.sizeOf_spec]
    omega
  | and operands =>
    have : sizeOf c < sizeOf operands := List.sizeOf_lt_of_mem h
    rw [ShapeExpr.and.sizeOf_spec]
    omega
  | not operand =>
    rw [ShapeExpr.children, List.mem_singleton] at h
    rw [h, ShapeExpr.not.sizeOf_spec]
    omega
  | shape s =>
    rw [ShapeExpr.children, List.mem_filterMap] at h
    obtain ⟨t, ht, hv⟩ := h
    cases s with
    | mk closed extra expression extended restricted acts =>
      cases expression with
      | none => cases ht
      | some te =>
        have : sizeOf c < sizeOf te := TripleExpr.sizeOf_value_lt ht hv
        simp only [ShapeExpr.shape.sizeOf_spec, Shape.mk.sizeOf_spec, Option.some.sizeOf_spec]
        omega
  | _ => cases h

/-- Induction on a shape expression: what holds of an expression if it holds of those directly
inside holds of every shape expression. -/
theorem ShapeExpr.childInduction {motive : ShapeExpr → Prop}
    (h : ∀ e, (∀ c ∈ e.children, motive c) → motive e) (e : ShapeExpr) : motive e :=
  h e fun c hc =>
    have := ShapeExpr.sizeOf_child_lt hc
    ShapeExpr.childInduction h c
termination_by sizeOf e

/-- An expression with all expressions inside it, at any depth. -/
def ShapeExpr.parts (e : ShapeExpr) : List ShapeExpr :=
  e :: e.children.attach.flatMap fun c =>
    have := ShapeExpr.sizeOf_child_lt c.2
    c.1.parts
termination_by sizeOf e

/-- The parts of an expression are itself and the parts of what is directly inside. -/
theorem ShapeExpr.parts_eq (e : ShapeExpr) :
    e.parts = e :: e.children.flatMap ShapeExpr.parts := by
  have hparts : e.children.attach.flatMap (fun c => c.1.parts) =
      e.children.flatMap ShapeExpr.parts := by
    rw [← List.flatMap_map Subtype.val ShapeExpr.parts, List.attach_map_subtype_val]
  rw [ShapeExpr.parts]
  exact congrArg (e :: ·) hparts

/-- An expression is a part of itself. -/
theorem ShapeExpr.mem_parts_self (e : ShapeExpr) : e ∈ e.parts := by
  rw [ShapeExpr.parts_eq]
  exact List.mem_cons_self

/-- If nothing is inside the children of an expression, its parts are itself and its children. -/
theorem ShapeExpr.parts_of_leaves {e : ShapeExpr} (h : ∀ c ∈ e.children, c.children = []) :
    e.parts = e :: e.children := by
  have hleaves : ∀ cs : List ShapeExpr, (∀ c ∈ cs, c.children = []) →
      cs.flatMap ShapeExpr.parts = cs := by
    intro cs hcs
    induction cs with
    | nil => rfl
    | cons c cs ih =>
      rw [List.flatMap_cons, ih fun c' hc' => hcs c' (List.mem_cons_of_mem _ hc'),
        ShapeExpr.parts_eq, hcs c List.mem_cons_self]
      rfl
  rw [ShapeExpr.parts_eq, hleaves _ h]

/-- What is directly inside a part is a part. -/
theorem ShapeExpr.children_mem_parts {c p e : ShapeExpr} (hp : p ∈ e.parts)
    (hc : c ∈ p.children) : c ∈ e.parts := by
  induction e using ShapeExpr.childInduction with
  | h e ih =>
    rw [ShapeExpr.parts_eq] at hp ⊢
    rcases List.mem_cons.1 hp with rfl | hp
    · exact List.mem_cons_of_mem _ (List.mem_flatMap.2 ⟨c, hc, c.mem_parts_self⟩)
    · obtain ⟨c', hc', hp⟩ := List.mem_flatMap.1 hp
      exact List.mem_cons_of_mem _ (List.mem_flatMap.2 ⟨c', hc', ih c' hc' hp⟩)

/-- The parts of a part are parts. -/
theorem ShapeExpr.parts_subset {p e : ShapeExpr} (hp : p ∈ e.parts) : p.parts ⊆ e.parts := by
  induction p using ShapeExpr.childInduction with
  | h p ih =>
    intro q hq
    rw [ShapeExpr.parts_eq] at hq
    rcases List.mem_cons.1 hq with rfl | hq
    · exact hp
    · obtain ⟨c, hc, hq⟩ := List.mem_flatMap.1 hq
      exact ih c hc (ShapeExpr.children_mem_parts hp hc) hq

/-! ## What walks collect -/

/-- The constraints of a triple expression are those at its leaves, in order. -/
theorem TripleExpr.constraints_eq (te : TripleExpr) :
    te.constraints = te.triples.flatMap TripleConstraint.constraints := by
  have hall : ∀ es : List TripleExpr,
      (∀ e ∈ es, e.constraints = e.triples.flatMap TripleConstraint.constraints) →
      TripleExpr.constraintsOfAll es =
        (es.flatMap TripleExpr.triples).flatMap TripleConstraint.constraints := by
    intro es h
    induction es with
    | nil => rfl
    | cons e es ih =>
      rw [TripleExpr.constraintsOfAll, h e List.mem_cons_self,
        ih fun e' he' => h e' (List.mem_cons_of_mem _ he'), List.flatMap_cons,
        List.flatMap_append]
  have hgroup : ∀ g : TripleGroup,
      (∀ e ∈ g.members, e.constraints = e.triples.flatMap TripleConstraint.constraints) →
      g.constraints = g.triples.flatMap TripleConstraint.constraints := by
    intro g h
    rw [TripleGroup.triples_eq, ← hall g.members h]
    cases g
    rfl
  induction te using TripleExpr.memberInduction with
  | eachOf g ih => exact hgroup g ih
  | oneOf g ih => exact hgroup g ih
  | triple t => exact (List.append_nil _).symm
  | ref label => rfl

/-- The constraints of a triple constraint are those of its value expression. -/
theorem TripleConstraint.constraints_eq (t : TripleConstraint) :
    t.constraints = t.value.elim [] ShapeExpr.constraints := by
  cases t with
  | mk predicate inverse value cardinality acts => cases value <;> rfl

/-- The constraints of a shape are those of its triple constraints, in order. -/
theorem Shape.constraints_eq (s : Shape) :
    s.constraints = s.triples.flatMap TripleConstraint.constraints := by
  cases s with
  | mk closed extra expression extended restricted acts =>
    cases expression with
    | none => rfl
    | some te => exact te.constraints_eq

/-- The constraints of a list are those of its members, in order. -/
theorem ShapeExpr.constraintsOfAll_eq (es : List ShapeExpr) :
    ShapeExpr.constraintsOfAll es = es.flatMap ShapeExpr.constraints := by
  induction es with
  | nil => rfl
  | cons e es ih => rw [ShapeExpr.constraintsOfAll, ih, List.flatMap_cons]

/-- The constraints of triple constraints are those of the value expressions that they have. -/
theorem flatMap_constraints_eq (ts : List TripleConstraint) :
    ts.flatMap TripleConstraint.constraints =
      (ts.filterMap (·.value)).flatMap ShapeExpr.constraints := by
  induction ts with
  | nil => rfl
  | cons t ts ih =>
    rw [List.flatMap_cons, ih, TripleConstraint.constraints_eq, List.filterMap_cons]
    cases t.value <;> rfl

/-- The constraint that an expression is, if it is one. -/
def ShapeExpr.constraint? : ShapeExpr → Option NodeConstraint
  | .node c => some c
  | _ => none

/-- An expression that is no constraint has those of what is directly inside it. -/
theorem ShapeExpr.constraints_eq_children (e : ShapeExpr) :
    e.constraints = e.constraint?.toList ++ e.children.flatMap ShapeExpr.constraints := by
  cases e with
  | or operands => exact ShapeExpr.constraintsOfAll_eq operands
  | and operands => exact ShapeExpr.constraintsOfAll_eq operands
  | not operand => exact (List.append_nil _).symm
  | shape s =>
    rw [ShapeExpr.constraints, Shape.constraints_eq, flatMap_constraints_eq]
    rfl
  | _ => rfl

/-- The constraints that are collected from an expression are those that stand in it, each in its
place. -/
theorem ShapeExpr.constraints_eq_parts (e : ShapeExpr) :
    e.constraints = e.parts.filterMap ShapeExpr.constraint? := by
  induction e using ShapeExpr.childInduction with
  | h e ih =>
    have hchildren : e.children.flatMap ShapeExpr.constraints =
        (e.children.flatMap ShapeExpr.parts).filterMap ShapeExpr.constraint? := by
      rw [List.filterMap_flatMap]
      exact List.flatMap_congr ih
    rw [ShapeExpr.constraints_eq_children, ShapeExpr.parts_eq, List.filterMap_cons, hchildren]
    cases e.constraint? <;> rfl

/-- The constraints of what is directly inside an expression are among those of the expression. -/
theorem ShapeExpr.child_constraints {c e : ShapeExpr} (h : c ∈ e.children) :
    c.constraints ⊆ e.constraints := by
  rw [ShapeExpr.constraints_eq_children e]
  exact fun x hx => List.mem_append_right _ (List.mem_flatMap.2 ⟨c, h, hx⟩)

/-- The value expression of a leaf has its constraints in the triple expression. -/
theorem TripleExpr.value_constraints {te : TripleExpr} {t : TripleConstraint} {v : ShapeExpr}
    (ht : t ∈ te.triples) (hv : t.value = some v) : v.constraints ⊆ te.constraints := by
  intro c hc
  rw [TripleExpr.constraints_eq]
  refine List.mem_flatMap.2 ⟨t, ht, ?_⟩
  rw [TripleConstraint.constraints_eq, hv]
  exact hc

/-- The parts of the value expressions of some triple constraints. -/
def valueParts (triples : List TripleConstraint) : List ShapeExpr :=
  (triples.filterMap (·.value)).flatMap ShapeExpr.parts

/-- The parts of value expressions of two lists together are those of the one and of the other. -/
theorem valueParts_append (ts us : List TripleConstraint) :
    valueParts (ts ++ us) = valueParts ts ++ valueParts us := by
  rw [valueParts, List.filterMap_append, List.flatMap_append]
  rfl

/-- The size of a triple expression counts the parts of its value expressions, if the sizes of those
count theirs. -/
theorem TripleExpr.length_valueParts (te : TripleExpr)
    (h : ∀ t ∈ te.triples, ∀ v, t.value = some v → v.parts.length = v.size) :
    (valueParts te.triples).length = te.size := by
  have hgroup : ∀ g : TripleGroup,
      (∀ e ∈ g.members, (valueParts e.triples).length = e.size) →
      (valueParts g.triples).length = g.size := by
    rintro ⟨members, cardinality, acts⟩ hm
    show (valueParts (TripleExpr.triplesOfAll members)).length = TripleExpr.sizeOfAll members
    induction members with
    | nil => rfl
    | cons e es ih =>
      rw [TripleExpr.triplesOfAll, valueParts_append, List.length_append, TripleExpr.sizeOfAll,
        hm e List.mem_cons_self, ih fun e' he' => hm e' (List.mem_cons_of_mem _ he')]
  induction te using TripleExpr.memberInduction with
  | eachOf g ih =>
    exact hgroup g fun e he => ih e he fun t ht => h t (TripleGroup.triples_of_member he ht)
  | oneOf g ih =>
    exact hgroup g fun e he => ih e he fun t ht => h t (TripleGroup.triples_of_member he ht)
  | triple t =>
    have ht := h t (List.mem_singleton.2 rfl)
    cases t with
    | mk predicate inverse value cardinality acts =>
      cases value with
      | none => rfl
      | some v =>
        show (v.parts ++ []).length = v.size
        rw [List.append_nil]
        exact ht v rfl
  | ref label => rfl

/-- The size of a shape expression counts its parts. -/
theorem ShapeExpr.length_parts (e : ShapeExpr) : e.parts.length = e.size := by
  have hall : ∀ es : List ShapeExpr, (∀ e ∈ es, e.parts.length = e.size) →
      (es.flatMap ShapeExpr.parts).length = ShapeExpr.sizeOfAll es := by
    intro es h
    induction es with
    | nil => rfl
    | cons e es ih =>
      rw [List.flatMap_cons, List.length_append, h e List.mem_cons_self,
        ih fun e' he' => h e' (List.mem_cons_of_mem _ he'), ShapeExpr.sizeOfAll]
  induction e using ShapeExpr.childInduction with
  | h e ih =>
    rw [ShapeExpr.parts_eq, List.length_cons]
    cases e with
    | or operands => rw [ShapeExpr.children, hall operands ih, ShapeExpr.size]
    | and operands => rw [ShapeExpr.children, hall operands ih, ShapeExpr.size]
    | not operand =>
      have h := hall [operand] ih
      rw [ShapeExpr.children, h, ShapeExpr.size]
      rfl
    | shape s =>
      cases s with
      | mk closed extra expression extended restricted acts =>
        cases expression with
        | none => rfl
        | some te =>
          have h : (valueParts te.triples).length = te.size :=
            te.length_valueParts fun t ht v hv => ih v (List.mem_filterMap.2 ⟨t, ht, hv⟩)
          exact congrArg (· + 1) h
    | node c => rfl
    | external => rfl
    | ref label => rfl

end ShEx
