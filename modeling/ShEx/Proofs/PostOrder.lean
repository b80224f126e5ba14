import ShEx.ShExJ.Load
import Mathlib.Data.List.Basic
import Mathlib.Logic.Relation

/-!
# Walking through a schema document

The expressions of a document form trees (`Entry.parts`).  Walking them in post-order
(`Entry.postOrder`) meets every expression (`Entry.mem_postOrder_iff`, `Document.contains_iff`), and
the labelled ones are what the document collects (`Document.labelled_eq`,
`Document.labelledTriples_eq`).
-/

set_option autoImplicit false

namespace ShEx.ShExJ

/-! ## Lists of expressions -/

/-- What is collected from operands is what each of them contains, with itself behind it. -/
theorem ShapeEntry.labelledOfAll_eq (es : List ShapeEntry) :
    ShapeEntry.labelledOfAll es = es.flatMap fun e => e.labelledInside ++ e.underId := by
  induction es with
  | nil => rfl
  | cons e rest ih => rw [ShapeEntry.labelledOfAll, ih, List.flatMap_cons]

/-- What is collected from members is what each of them contains. -/
theorem TripleEntry.labelledOfAll_eq (es : List TripleEntry) :
    TripleEntry.labelledOfAll es = es.flatMap TripleEntry.labelled := by
  induction es with
  | nil => rfl
  | cons e rest ih => rw [TripleEntry.labelledOfAll, ih, List.flatMap_cons]

/-- Labelled triple expressions are collected from operands one by one. -/
theorem ShapeEntry.labelledTriplesOfAll_eq (es : List ShapeEntry) :
    ShapeEntry.labelledTriplesOfAll es = es.flatMap ShapeEntry.labelledTriples := by
  induction es with
  | nil => rfl
  | cons e rest ih => rw [ShapeEntry.labelledTriplesOfAll, ih, List.flatMap_cons]

/-- Labelled triple expressions are collected from members one by one, each member behind what it
contains. -/
theorem TripleEntry.labelledTriplesOfAll_eq (es : List TripleEntry) :
    TripleEntry.labelledTriplesOfAll es = es.flatMap fun e => e.labelledInside ++ e.underId := by
  induction es with
  | nil => rfl
  | cons e rest ih => rw [TripleEntry.labelledTriplesOfAll, ih, List.flatMap_cons]

/-- Operands are loaded one by one. -/
theorem ShapeEntry.expressions_eq (es : List ShapeEntry) :
    ShapeEntry.expressions es = es.mapM ShapeEntry.expression := by
  induction es with
  | nil => rfl
  | cons e rest ih => rw [ShapeEntry.expressions, List.mapM_cons, ih]

/-- Members are loaded one by one. -/
theorem TripleEntry.expressions_eq (es : List TripleEntry) :
    TripleEntry.expressions es = es.mapM TripleEntry.expression := by
  induction es with
  | nil => rfl
  | cons e rest ih => rw [TripleEntry.expressions, List.mapM_cons, ih]

/-! ## The expressions of a document -/

/-- An expression as it is written, of either kind. -/
inductive Entry where
  | shape (e : ShapeEntry)
  | triple (e : TripleEntry)

namespace Entry

/-- A shape expression as such. -/
def shape? : Entry → Option ShapeEntry
  | .shape e => some e
  | .triple _ => none

/-- A triple expression as such. -/
def triple? : Entry → Option TripleEntry
  | .shape _ => none
  | .triple e => some e

/-- The shape expressions of a list are its entries of this kind. -/
theorem mem_filterMap_shape? {xs : List Entry} {e : ShapeEntry} :
    e ∈ xs.filterMap shape? ↔ .shape e ∈ xs := by
  rw [List.mem_filterMap]
  constructor
  · rintro ⟨x, hx, h⟩
    cases x <;> cases h
    exact hx
  · exact fun h => ⟨_, h, rfl⟩

/-- The triple expressions of a list are its entries of this kind. -/
theorem mem_filterMap_triple? {xs : List Entry} {e : TripleEntry} :
    e ∈ xs.filterMap triple? ↔ .triple e ∈ xs := by
  rw [List.mem_filterMap]
  constructor
  · rintro ⟨x, hx, h⟩
    cases x <;> cases h
    exact hx
  · exact fun h => ⟨_, h, rfl⟩

/-- The expressions right inside an expression, as they follow each other. -/
def parts : Entry → List Entry
  | .shape (.or _ operands) => operands.map .shape
  | .shape (.and _ operands) => operands.map .shape
  | .shape (.not _ operand) => [.shape operand]
  | .shape (.shape _ body) => (body.expression.map .triple).toList
  | .shape (.declaration _ _ e) => [.shape e]
  | .shape _ => []
  | .triple (.eachOf _ g) => g.members.map .triple
  | .triple (.oneOf _ g) => g.members.map .triple
  | .triple (.triple _ t) => (t.value.map .shape).toList
  | .triple (.reference _) => []

/-- A part is smaller than the expression that it stands right inside of, so that a walk through the
parts comes to an end. -/
theorem sizeOf_part_lt {e part : Entry} (h : part ∈ e.parts) : sizeOf part < sizeOf e := by
  -- The parts stand in lists, groups, shapes and triple constraints, each a field of the
  -- expression.
  have hshapes : ∀ {es : List ShapeEntry}, part ∈ es.map .shape → sizeOf part < 1 + sizeOf es := by
    intro es h
    obtain ⟨e, he, rfl⟩ := List.mem_map.1 h
    exact Nat.add_lt_add_left (List.sizeOf_lt_of_mem he) 1
  have hmembers : ∀ {g : GroupBody}, part ∈ g.members.map .triple → sizeOf part < 1 + sizeOf g := by
    rintro ⟨members, _, _, _⟩ h
    obtain ⟨e, he, rfl⟩ := List.mem_map.1 h
    have hlt := List.sizeOf_lt_of_mem he
    simp only [triple.sizeOf_spec, GroupBody.mk.sizeOf_spec]
    simp only at hlt
    omega
  have hexpression : ∀ {body : ShapeBody}, part ∈ (body.expression.map .triple).toList →
      sizeOf part < 1 + sizeOf body := by
    rintro ⟨_, _, _ | te, _, _, _⟩ h
    · cases h
    · cases List.mem_singleton.1 h
      simp only [triple.sizeOf_spec, ShapeBody.mk.sizeOf_spec, Option.some.sizeOf_spec]
      omega
  have hvalue : ∀ {t : TripleBody}, part ∈ (t.value.map .shape).toList →
      sizeOf part < 1 + sizeOf t := by
    rintro ⟨_, _, _ | v, _, _, _⟩ h
    · cases h
    · cases List.mem_singleton.1 h
      simp only [shape.sizeOf_spec, TripleBody.mk.sizeOf_spec, Option.some.sizeOf_spec]
      omega
  cases e with
  | shape e =>
    cases e with
    | reference | node | external => cases h
    | or _ operands => grind [hshapes h]
    | and _ operands => grind [hshapes h]
    | not _ operand => grind [List.mem_singleton.1 h]
    | declaration _ _ e => grind [List.mem_singleton.1 h]
    | shape _ body => grind [hexpression h]
  | triple e =>
    cases e with
    | reference => cases h
    | eachOf _ g => grind [hmembers h]
    | oneOf _ g => grind [hmembers h]
    | triple _ t => grind [hvalue h]

/-- An expression and all that it contains, where each one comes behind what it contains. -/
def postOrder (e : Entry) : List Entry :=
  (e.parts.attach.flatMap fun part => postOrder part.1) ++ [e]
termination_by sizeOf e
decreasing_by exact sizeOf_part_lt part.2

/-- What an expression contains, in post-order. -/
def inside (e : Entry) : List Entry := e.parts.flatMap postOrder

/-- The walk comes to an expression last, behind all that it contains. -/
theorem postOrder_eq (e : Entry) : e.postOrder = e.inside ++ [e] := by
  have hparts : (e.parts.attach.flatMap fun part => postOrder part.1) = e.inside := by
    rw [inside, ← List.flatMap_map Subtype.val postOrder e.parts.attach,
      List.attach_map_subtype_val]
  rw [postOrder, hparts]

/-- An expression stands in another one, at any depth. -/
def Within (x e : Entry) : Prop := Relation.ReflTransGen (fun e part => part ∈ e.parts) e x

/-- The walk meets every expression that there is. -/
theorem mem_postOrder_iff {e x : Entry} : x ∈ e.postOrder ↔ x.Within e := by
  induction e using postOrder.induct with
  | case1 e ih =>
    rw [postOrder_eq, List.mem_append, List.mem_singleton, inside, List.mem_flatMap]
    constructor
    · rintro (⟨part, hpart, hx⟩ | rfl)
      · exact .head hpart ((ih ⟨part, hpart⟩).1 hx)
      · exact .refl
    · intro h
      rcases Relation.ReflTransGen.cases_head h with rfl | ⟨part, hpart, hx⟩
      · exact .inr rfl
      · exact .inl ⟨part, hpart, (ih ⟨part, hpart⟩).2 hx⟩

/-- What is collected at all parts of an expression is collected in post-order. -/
theorem collect_eq {β : Type} {all own : Entry → List β}
    (h : ∀ e : Entry, all e = e.parts.flatMap fun part => all part ++ own part) (e : Entry) :
    all e = e.inside.flatMap own := by
  induction e using postOrder.induct with
  | case1 e ih =>
    rw [h, inside, List.flatMap_assoc]
    refine List.flatMap_congr fun part hpart => ?_
    rw [ih ⟨part, hpart⟩, postOrder_eq, List.flatMap_append, List.flatMap_singleton]

/-- The labelled shape expressions strictly inside an expression. -/
def labelledShapes : Entry → List (String × ShapeEntry)
  | .shape e => e.labelledInside
  | .triple e => e.labelled

/-- The labelled triple expressions strictly inside an expression. -/
def labelledTriples : Entry → List (String × TripleEntry)
  | .shape e => e.labelledTriples
  | .triple e => e.labelledInside

/-- A shape expression under its `id`, if it has one. -/
def shapeUnderId : Entry → List (String × ShapeEntry)
  | .shape e => e.underId
  | .triple _ => []

/-- A triple expression under its `id`, if it has one. -/
def tripleUnderId : Entry → List (String × TripleEntry)
  | .shape _ => []
  | .triple e => e.underId

/-- Collecting shape expressions under their labels passes over triple expressions. -/
theorem flatMap_shapeUnderId (xs : List Entry) :
    xs.flatMap shapeUnderId = (xs.filterMap shape?).flatMap ShapeEntry.underId := by
  induction xs with
  | nil => rfl
  | cons x rest ih =>
    rw [List.flatMap_cons, ih]
    cases x <;> rfl

/-- Collecting triple expressions under their labels passes over shape expressions. -/
theorem flatMap_tripleUnderId (xs : List Entry) :
    xs.flatMap tripleUnderId = (xs.filterMap triple?).flatMap TripleEntry.underId := by
  induction xs with
  | nil => rfl
  | cons x rest ih =>
    rw [List.flatMap_cons, ih]
    cases x <;> rfl

/-- The labelled shape expressions inside an expression are collected in post-order, whichever kinds
of expressions they stand in. -/
theorem labelledShapes_eq (e : Entry) : e.labelledShapes = e.inside.flatMap shapeUnderId := by
  refine collect_eq (fun e => ?_) e
  cases e with
  | shape e =>
    cases e with
    | reference | node | external => rfl
    | or _ operands | and _ operands =>
      rw [parts, List.flatMap_map]
      exact ShapeEntry.labelledOfAll_eq operands
    | not _ operand | declaration _ _ operand => exact (List.flatMap_singleton ..).symm
    | shape _ body =>
      obtain ⟨_, _, _ | te, _, _, _⟩ := body
      · rfl
      · simp [parts, labelledShapes, shapeUnderId, ShapeEntry.labelledInside, ShapeBody.labelled]
  | triple e =>
    cases e with
    | reference => rfl
    | eachOf _ g | oneOf _ g =>
      obtain ⟨members, _, _, _⟩ := g
      simp [parts, labelledShapes, shapeUnderId, TripleEntry.labelled, GroupBody.labelled,
        TripleEntry.labelledOfAll_eq, List.flatMap_map]
    | triple _ t =>
      obtain ⟨_, _, _ | v, _, _, _⟩ := t
      · rfl
      · exact (List.flatMap_singleton ..).symm

/-- The labelled triple expressions inside an expression are collected in post-order, whichever
kinds of expressions they stand in. -/
theorem labelledTriples_eq (e : Entry) : e.labelledTriples = e.inside.flatMap tripleUnderId := by
  refine collect_eq (fun e => ?_) e
  cases e with
  | shape e =>
    cases e with
    | reference | node | external => rfl
    | or _ operands | and _ operands =>
      simp [parts, labelledTriples, tripleUnderId, ShapeEntry.labelledTriples,
        ShapeEntry.labelledTriplesOfAll_eq, List.flatMap_map]
    | not _ operand | declaration _ _ operand =>
      simp [parts, labelledTriples, tripleUnderId, ShapeEntry.labelledTriples]
    | shape _ body =>
      obtain ⟨_, _, _ | te, _, _, _⟩ := body
      · rfl
      · exact (List.flatMap_singleton ..).symm
  | triple e =>
    cases e with
    | reference => rfl
    | eachOf _ g | oneOf _ g =>
      obtain ⟨members, _, _, _⟩ := g
      rw [parts, List.flatMap_map]
      exact TripleEntry.labelledTriplesOfAll_eq members
    | triple _ t =>
      obtain ⟨_, _, _ | v, _, _, _⟩ := t
      · rfl
      · simp [parts, labelledTriples, tripleUnderId, TripleEntry.labelledInside,
          TripleBody.labelledTriples]

end Entry

/-! ## Documents -/

namespace Document

/-- An expression stands somewhere in a document. -/
def Contains (d : Document) (x : Entry) : Prop :=
  ∃ e ∈ d.shapes ++ d.start.toList, x.Within (.shape e)

/-- The expressions inside those of the shapes list, and the start expression with all that it
contains, in post-order. -/
def inside (d : Document) : List Entry :=
  d.shapes.flatMap (fun e => (Entry.shape e).inside) ++
    d.start.toList.flatMap fun e => (Entry.shape e).postOrder

/-- The shape expressions among them. -/
def inlineShapes (d : Document) : List ShapeEntry :=
  d.inside.filterMap Entry.shape?

/-- The triple expressions among them. -/
def tripleEntries (d : Document) : List TripleEntry :=
  d.inside.filterMap Entry.triple?

variable {d : Document}

/-- What stands in a document is an entry of the shapes list, or stands inside one, or in the start
expression. -/
theorem contains_iff {x : Entry} :
    d.Contains x ↔ (∃ e ∈ d.shapes, x = .shape e) ∨ x ∈ d.inside := by
  have hpost : ∀ {e : ShapeEntry},
      x.Within (.shape e) ↔ x ∈ (Entry.shape e).inside ∨ x = .shape e := by
    intro e
    rw [← Entry.mem_postOrder_iff, Entry.postOrder_eq, List.mem_append, List.mem_singleton]
  unfold Contains inside
  simp only [List.mem_append, List.mem_flatMap, Entry.mem_postOrder_iff, or_and_right, exists_or]
  constructor
  · rintro (⟨e, he, hx⟩ | hstart)
    · rcases hpost.1 hx with hx | rfl
      · exact .inr (.inl ⟨e, he, hx⟩)
      · exact .inl ⟨e, he, rfl⟩
    · exact .inr (.inr hstart)
  · rintro (⟨e, he, rfl⟩ | ⟨e, he, hx⟩ | hstart)
    · exact .inl ⟨e, he, .refl⟩
    · exact .inl ⟨e, he, hpost.2 (.inl hx)⟩
    · exact .inr hstart

/-- The shape expressions in a document are those inside others and those of the shapes list. -/
theorem contains_shape_iff {e : ShapeEntry} :
    d.Contains (.shape e) ↔ e ∈ d.inlineShapes ++ d.shapes := by
  rw [contains_iff, List.mem_append, inlineShapes, Entry.mem_filterMap_shape?, or_comm]
  refine or_congr Iff.rfl ⟨?_, fun h => ⟨e, h, rfl⟩⟩
  rintro ⟨e', he', heq⟩
  cases heq
  exact he'

/-- The triple expressions in a document are all inside others. -/
theorem contains_triple_iff {e : TripleEntry} :
    d.Contains (.triple e) ↔ e ∈ d.tripleEntries := by
  rw [contains_iff, tripleEntries, Entry.mem_filterMap_triple?]
  refine or_iff_right ?_
  rintro ⟨e', he', heq⟩
  cases heq

/-- The labelled shape expressions that are collected from a document are those inside others, in
post-order. -/
theorem labelled_eq : d.labelled = d.inlineShapes.flatMap ShapeEntry.underId := by
  have hshapes : d.shapes.flatMap ShapeEntry.labelledInside =
      d.shapes.flatMap fun e => (Entry.shape e).inside.flatMap Entry.shapeUnderId :=
    List.flatMap_congr fun e _ => Entry.labelledShapes_eq (.shape e)
  have hstart : ShapeEntry.labelledOfAll d.start.toList =
      d.start.toList.flatMap fun e => (Entry.shape e).postOrder.flatMap Entry.shapeUnderId := by
    rw [ShapeEntry.labelledOfAll_eq]
    refine List.flatMap_congr fun e _ => ?_
    rw [Entry.postOrder_eq, List.flatMap_append, ← Entry.labelledShapes_eq, List.flatMap_singleton]
    rfl
  rw [inlineShapes, ← Entry.flatMap_shapeUnderId, inside, List.flatMap_append, List.flatMap_assoc,
    List.flatMap_assoc, ← hshapes, ← hstart, labelled]

/-- The labelled triple expressions that are collected from a document are all that there are, in
post-order. -/
theorem labelledTriples_eq : d.labelledTriples = d.tripleEntries.flatMap TripleEntry.underId := by
  have hall : ∀ es : List ShapeEntry, ShapeEntry.labelledTriplesOfAll es =
      es.flatMap fun e => (Entry.shape e).inside.flatMap Entry.tripleUnderId := by
    intro es
    rw [ShapeEntry.labelledTriplesOfAll_eq]
    exact List.flatMap_congr fun e _ => Entry.labelledTriples_eq (.shape e)
  have hstart : d.start.toList.flatMap (fun e =>
        (Entry.shape e).postOrder.flatMap Entry.tripleUnderId) =
      d.start.toList.flatMap fun e => (Entry.shape e).inside.flatMap Entry.tripleUnderId := by
    refine List.flatMap_congr fun e _ => ?_
    rw [Entry.postOrder_eq, List.flatMap_append]
    exact List.append_nil _
  rw [tripleEntries, ← Entry.flatMap_tripleUnderId, inside, List.flatMap_append, List.flatMap_assoc,
    List.flatMap_assoc, hstart, ← List.flatMap_append, labelledTriples, hall]

end Document

end ShEx.ShExJ
