import ShEx.Proofs.LabelIndex
import ShEx.Proofs.Numbering

/-!
# The node constraints of a loaded schema

Loading gives numbers to the node constraints of a document and changes nothing else about them:
each node constraint of the schema says what is written in one of the document
(`Document.exists_entry_of_load`).
-/

set_option autoImplicit false

namespace ShEx

open ShEx.Rdf

/-! ## Numbers -/

/-- A node constraint without its number. -/
def NodeConstraint.unnumbered (c : NodeConstraint) : NodeConstraint := { c with id := none }

mutual

/-- Numbering changes nothing but numbers. -/
theorem ShapeExpr.map_unnumbered (n : Nat) : ∀ e : ShapeExpr,
    (e.numbered n).1.constraints.map NodeConstraint.unnumbered =
      e.constraints.map NodeConstraint.unnumbered
  | .or operands => ShapeExpr.map_unnumberedAll n operands
  | .and operands => ShapeExpr.map_unnumberedAll n operands
  | .not operand => operand.map_unnumbered n
  | .node _ => rfl
  | .shape s => s.map_unnumbered n
  | .external => rfl
  | .ref _ => rfl

/-- Numbering operands one after the other changes nothing but numbers. -/
theorem ShapeExpr.map_unnumberedAll (n : Nat) : ∀ es : List ShapeExpr,
    (ShapeExpr.constraintsOfAll (ShapeExpr.numberedAll n es).1).map NodeConstraint.unnumbered =
      (ShapeExpr.constraintsOfAll es).map NodeConstraint.unnumbered
  | [] => rfl
  | e :: es => by
    rw [ShapeExpr.numberedAll, ShapeExpr.constraintsOfAll, ShapeExpr.constraintsOfAll,
      List.map_append, List.map_append, e.map_unnumbered, ShapeExpr.map_unnumberedAll _ es]

/-- Numbering a shape changes nothing but numbers. -/
theorem Shape.map_unnumbered (n : Nat) : ∀ s : Shape,
    (s.numbered n).1.constraints.map NodeConstraint.unnumbered =
      s.constraints.map NodeConstraint.unnumbered
  | ⟨_, _, none, _, _, _⟩ => rfl
  | ⟨_, _, some e, _, _, _⟩ => e.map_unnumbered n

/-- Numbering a triple expression changes nothing but numbers. -/
theorem TripleExpr.map_unnumbered (n : Nat) : ∀ e : TripleExpr,
    (e.numbered n).1.constraints.map NodeConstraint.unnumbered =
      e.constraints.map NodeConstraint.unnumbered
  | .eachOf g => g.map_unnumbered n
  | .oneOf g => g.map_unnumbered n
  | .triple t => t.map_unnumbered n
  | .ref _ => rfl

/-- Numbering a group changes nothing but numbers. -/
theorem TripleGroup.map_unnumbered (n : Nat) : ∀ g : TripleGroup,
    (g.numbered n).1.constraints.map NodeConstraint.unnumbered =
      g.constraints.map NodeConstraint.unnumbered
  | ⟨members, _, _⟩ => TripleExpr.map_unnumberedAll n members

/-- Numbering members one after the other changes nothing but numbers. -/
theorem TripleExpr.map_unnumberedAll (n : Nat) : ∀ es : List TripleExpr,
    (TripleExpr.constraintsOfAll (TripleExpr.numberedAll n es).1).map NodeConstraint.unnumbered =
      (TripleExpr.constraintsOfAll es).map NodeConstraint.unnumbered
  | [] => rfl
  | e :: es => by
    rw [TripleExpr.numberedAll, TripleExpr.constraintsOfAll, TripleExpr.constraintsOfAll,
      List.map_append, List.map_append, e.map_unnumbered, TripleExpr.map_unnumberedAll _ es]

/-- Numbering a triple constraint changes nothing but numbers. -/
theorem TripleConstraint.map_unnumbered (n : Nat) : ∀ t : TripleConstraint,
    (t.numbered n).1.constraints.map NodeConstraint.unnumbered =
      t.constraints.map NodeConstraint.unnumbered
  | ⟨_, _, none, _, _⟩ => rfl
  | ⟨_, _, some e, _, _⟩ => e.map_unnumbered n

end

/-! ## Schemas step by step -/

namespace Schema

variable {s : Schema} {P : NodeConstraint → Prop}

/-- The node constraints of a schema, without their numbers, have a property. -/
def AllConstraints (P : NodeConstraint → Prop) (s : Schema) : Prop :=
  ∀ nc ∈ s.constraints, P nc.unnumbered

/-- A property that does not speak of numbers passes to constraints that differ in their numbers
only. -/
theorem unnumbered_of_map_eq {cs cs' : List NodeConstraint}
    (h : cs.map NodeConstraint.unnumbered = cs'.map NodeConstraint.unnumbered)
    (hP : ∀ nc ∈ cs', P nc.unnumbered) : ∀ nc ∈ cs, P nc.unnumbered := by
  intro nc hnc
  have hmem : nc.unnumbered ∈ cs'.map NodeConstraint.unnumbered :=
    h ▸ List.mem_map_of_mem hnc
  obtain ⟨nc', hnc', heq⟩ := List.mem_map.1 hmem
  exact heq ▸ hP nc' hnc'

/-- A declaration whose constraints have the property leaves it to all constraints of the schema. -/
theorem AllConstraints.addShape (h : s.AllConstraints P) {d : Declaration}
    (hd : ∀ nc ∈ d.expression.constraints, P nc.unnumbered) :
    (s.addShape d).AllConstraints P := by
  intro nc hnc
  rcases mem_constraints.1 hnc with ⟨d', hd', hnc⟩ | hnc
  · rcases mem_placed hd' with rfl | hd'
    · exact unnumbered_of_map_eq (d.expression.map_unnumbered s.nextConstraint) hd nc hnc
    · exact h nc (mem_constraints.2 (.inl ⟨d', hd', hnc⟩))
  · exact h nc (mem_constraints.2 (.inr hnc))

/-- A labelled triple expression whose constraints have the property leaves it to all constraints of
the schema. -/
theorem AllConstraints.addTripleExpression (h : s.AllConstraints P) {label : Label}
    {te : TripleExpr} (hte : ∀ nc ∈ te.constraints, P nc.unnumbered) :
    (s.addTripleExpression label te).AllConstraints P := by
  intro nc hnc
  rcases mem_constraints.1 hnc with hnc | ⟨entry, hentry, hnc⟩ | hnc
  · exact h nc (mem_constraints.2 (.inl hnc))
  · obtain ⟨kept, hkept, hperm⟩ := exists_placedTriple_perm label
      (te.numbered s.nextConstraint).1 s.tripleExpressions
    rcases List.mem_cons.1 (hperm.subset hentry) with rfl | hentry
    · exact unnumbered_of_map_eq (te.map_unnumbered s.nextConstraint) hte nc hnc
    · exact h nc (mem_constraints.2 (.inr (.inl ⟨entry, hkept.subset hentry, hnc⟩)))
  · exact h nc (mem_constraints.2 (.inr (.inr hnc)))

/-- A start expression whose constraints have the property leaves it to all constraints of the
schema. -/
theorem AllConstraints.setStart (h : s.AllConstraints P) {e : ShapeExpr}
    (he : ∀ nc ∈ e.constraints, P nc.unnumbered) : (s.setStart e).AllConstraints P := by
  intro nc hnc
  rcases mem_constraints.1 hnc with hnc | hnc | ⟨e', he', hnc⟩
  · exact h nc (mem_constraints.2 (.inl hnc))
  · exact h nc (mem_constraints.2 (.inr (.inl hnc)))
  · cases he'
    exact unnumbered_of_map_eq (e.map_unnumbered s.nextConstraint) he nc hnc

/-- Declarations whose constraints have the property leave it to all constraints of the schema. -/
theorem AllConstraints.addShapes (h : s.AllConstraints P) {ds : List Declaration}
    (hds : ∀ d ∈ ds, ∀ nc ∈ d.expression.constraints, P nc.unnumbered) :
    (ds.foldl Schema.addShape s).AllConstraints P := by
  induction ds generalizing s with
  | nil => exact h
  | cons d rest ih =>
    obtain ⟨hd, hrest⟩ := List.forall_mem_cons.1 hds
    exact ih (h.addShape hd) hrest

/-- Labelled triple expressions whose constraints have the property leave it to all constraints of
the schema. -/
theorem AllConstraints.withTriples (h : s.AllConstraints P) {entries : List (Label × TripleExpr)}
    (hentries : ∀ entry ∈ entries, ∀ nc ∈ entry.2.constraints, P nc.unnumbered) :
    (s.withTriples entries).AllConstraints P := by
  induction entries generalizing s with
  | nil => exact h
  | cons entry rest ih =>
    obtain ⟨hentry, hrest⟩ := List.forall_mem_cons.1 hentries
    exact ih (h.addTripleExpression hentry) hrest

end Schema

/-! ## Expressions -/

/-- The constraints of several triple expressions are those of each, one after the other. -/
theorem TripleExpr.constraintsOfAll_eq (es : List TripleExpr) :
    TripleExpr.constraintsOfAll es = es.flatMap TripleExpr.constraints := by
  induction es with
  | nil => rfl
  | cons e es ih => rw [TripleExpr.constraintsOfAll, ih, List.flatMap_cons]

namespace ShExJ

/-- A node constraint is loaded as a constraint without a number, or as a choice of nothing. -/
theorem NodeEntry.expression_cases {c : NodeEntry} {x : ShapeExpr} (h : c.expression = .ok x) :
    (c.values = some [] ∧ x = .or []) ∨
      ∃ nc, x = .node nc ∧ nc.unnumbered = nc ∧
        (c.values.getD []).mapM ValueEntry.toValue = .ok nc.values := by
  obtain ⟨datatype, -, h⟩ := exists_of_bind_eq_ok h
  obtain ⟨numbers, -, h⟩ := exists_of_bind_eq_ok h
  split at h
  · next hvalues =>
    cases h
    exact .inl ⟨hvalues, rfl⟩
  · obtain ⟨values, hvalues, h⟩ := exists_of_bind_eq_ok h
    cases h
    exact .inr ⟨_, rfl, rfl, hvalues⟩

namespace Entry

/-- A node constraint is one of those in what an expression of a document is loaded as. -/
def Gives (nc : NodeConstraint) : Entry → Prop
  | .shape e => ∃ x, e.expression = .ok x ∧ nc ∈ x.constraints
  | .triple e => ∃ x, e.expression = .ok x ∧ nc ∈ x.constraints

variable {nc : NodeConstraint}

/-- A constraint of operands comes from one of the entries they are loaded from. -/
theorem exists_gives_of_shapes {es : List ShapeEntry} {xs : List ShapeExpr}
    (h : ShapeEntry.expressions es = .ok xs) (hnc : nc ∈ ShapeExpr.constraintsOfAll xs) :
    ∃ part ∈ es.map Entry.shape, part.Gives nc := by
  rw [ShapeExpr.constraintsOfAll_eq, List.mem_flatMap] at hnc
  rw [ShapeEntry.expressions_eq] at h
  obtain ⟨x, hx, hnc⟩ := hnc
  obtain ⟨e, he, hex⟩ := (exists_of_forall₂ (mapM_eq_ok_iff.1 h)).2 x hx
  exact ⟨.shape e, List.mem_map_of_mem he, x, hex, hnc⟩

/-- A constraint of members comes from one of the entries they are loaded from. -/
theorem exists_gives_of_triples {es : List TripleEntry} {xs : List TripleExpr}
    (h : TripleEntry.expressions es = .ok xs) (hnc : nc ∈ TripleExpr.constraintsOfAll xs) :
    ∃ part ∈ es.map Entry.triple, part.Gives nc := by
  rw [TripleExpr.constraintsOfAll_eq, List.mem_flatMap] at hnc
  rw [TripleEntry.expressions_eq] at h
  obtain ⟨x, hx, hnc⟩ := hnc
  obtain ⟨e, he, hex⟩ := (exists_of_forall₂ (mapM_eq_ok_iff.1 h)).2 x hx
  exact ⟨.triple e, List.mem_map_of_mem he, x, hex, hnc⟩

/-- A constraint of a shape comes from the entry of its triple expression. -/
theorem exists_gives_of_toShape {body : ShapeBody} {s : Shape} (h : body.toShape = .ok s)
    (hnc : nc ∈ s.constraints) : ∃ part ∈ (body.expression.map Entry.triple).toList,
      part.Gives nc := by
  obtain ⟨closed, extra, expression, extended, restricted, acts⟩ := body
  rw [ShapeBody.toShape] at h
  obtain ⟨extra', -, h⟩ := exists_of_bind_eq_ok h
  cases expression with
  | none =>
    obtain ⟨none', hnone, h⟩ := exists_of_bind_eq_ok h
    obtain ⟨extended', -, h⟩ := exists_of_bind_eq_ok h
    obtain ⟨restricted', -, h⟩ := exists_of_bind_eq_ok h
    obtain ⟨acts', -, h⟩ := exists_of_bind_eq_ok h
    cases hnone
    cases h
    cases hnc
  | some e =>
    obtain ⟨x, hx, h⟩ := exists_of_bind_eq_ok h
    obtain ⟨some', hsome, h⟩ := exists_of_bind_eq_ok h
    obtain ⟨extended', -, h⟩ := exists_of_bind_eq_ok h
    obtain ⟨restricted', -, h⟩ := exists_of_bind_eq_ok h
    obtain ⟨acts', -, h⟩ := exists_of_bind_eq_ok h
    cases hsome
    cases h
    exact ⟨.triple e, List.mem_singleton_self _, x, hx, hnc⟩

/-- A constraint of a group comes from the entry of one of its members. -/
theorem exists_gives_of_toGroup {body : GroupBody} {g : TripleGroup} (h : body.toGroup = .ok g)
    (hnc : nc ∈ g.constraints) : ∃ part ∈ body.members.map Entry.triple, part.Gives nc := by
  obtain ⟨members, min, max, acts⟩ := body
  rw [GroupBody.toGroup] at h
  obtain ⟨members', hmembers, h⟩ := exists_of_bind_eq_ok h
  refine exists_gives_of_triples hmembers ?_
  dsimp only at h
  split at h
  · obtain ⟨bounds, -, h⟩ := exists_of_bind_eq_ok h
    obtain ⟨acts', -, h⟩ := exists_of_bind_eq_ok h
    cases h
    exact hnc
  · obtain ⟨c, -, h⟩ := exists_of_bind_eq_ok h
    obtain ⟨bounds, -, h⟩ := exists_of_bind_eq_ok h
    obtain ⟨acts', -, h⟩ := exists_of_bind_eq_ok h
    cases h
    exact hnc

/-- A constraint of a triple constraint comes from the entry of its value expression. -/
theorem exists_gives_of_toConstraint {body : TripleBody} {t : TripleConstraint}
    (h : body.toConstraint = .ok t) (hnc : nc ∈ t.constraints) :
    ∃ part ∈ (body.value.map Entry.shape).toList, part.Gives nc := by
  obtain ⟨inverse, predicate, value, min, max, acts⟩ := body
  rw [TripleBody.toConstraint] at h
  obtain ⟨predicate', -, h⟩ := exists_of_bind_eq_ok h
  cases value with
  | none =>
    obtain ⟨none', hnone, h⟩ := exists_of_bind_eq_ok h
    obtain ⟨bounds, -, h⟩ := exists_of_bind_eq_ok h
    obtain ⟨acts', -, h⟩ := exists_of_bind_eq_ok h
    cases hnone
    cases h
    cases hnc
  | some e =>
    obtain ⟨x, hx, h⟩ := exists_of_bind_eq_ok h
    obtain ⟨some', hsome, h⟩ := exists_of_bind_eq_ok h
    obtain ⟨bounds, -, h⟩ := exists_of_bind_eq_ok h
    obtain ⟨acts', -, h⟩ := exists_of_bind_eq_ok h
    cases hsome
    cases h
    exact ⟨.shape e, List.mem_singleton_self _, x, hx, hnc⟩

/-- A constraint that a shape expression gives is its own or given by one of its parts. -/
theorem gives_cases_of_shape {e : ShapeEntry} (h : (Entry.shape e).Gives nc) :
    (∃ id c, e = .node id c ∧ c.expression = .ok (.node nc)) ∨
      ∃ part ∈ (Entry.shape e).parts, part.Gives nc := by
  obtain ⟨x, hx, hnc⟩ := h
  -- Each kind of expression is converted by its own chain of binds; a conversion that succeeds did
  -- so at every step.
  cases e with
  | reference label =>
    obtain ⟨r, -, hx⟩ := exists_of_bind_eq_ok hx
    cases hx
    cases hnc
  | or id operands =>
    rw [ShapeEntry.expression] at hx
    obtain ⟨label, -, hx⟩ := exists_of_bind_eq_ok hx
    obtain ⟨xs, hxs, hx⟩ := exists_of_bind_eq_ok hx
    cases hx
    exact .inr (exists_gives_of_shapes hxs hnc)
  | and id operands =>
    rw [ShapeEntry.expression] at hx
    obtain ⟨label, -, hx⟩ := exists_of_bind_eq_ok hx
    obtain ⟨xs, hxs, hx⟩ := exists_of_bind_eq_ok hx
    cases hx
    exact .inr (exists_gives_of_shapes hxs hnc)
  | not id operand =>
    rw [ShapeEntry.expression] at hx
    obtain ⟨label, -, hx⟩ := exists_of_bind_eq_ok hx
    obtain ⟨y, hy, hx⟩ := exists_of_bind_eq_ok hx
    cases hx
    exact .inr ⟨.shape operand, List.mem_singleton_self _, y, hy, hnc⟩
  | node id c =>
    obtain ⟨label, -, hx⟩ := exists_of_bind_eq_ok hx
    rcases c.expression_cases hx with ⟨-, rfl⟩ | ⟨nc', rfl, -⟩
    · cases hnc
    · exact .inl ⟨id, c, rfl, List.mem_singleton.1 hnc ▸ hx⟩
  | shape id body =>
    rw [ShapeEntry.expression] at hx
    obtain ⟨label, -, hx⟩ := exists_of_bind_eq_ok hx
    obtain ⟨s, hs, hx⟩ := exists_of_bind_eq_ok hx
    cases hx
    exact .inr (exists_gives_of_toShape hs hnc)
  | external id =>
    obtain ⟨label, -, hx⟩ := exists_of_bind_eq_ok hx
    cases hx
    cases hnc
  | declaration id isAbstract e =>
    obtain ⟨label, -, hx⟩ := exists_of_bind_eq_ok hx
    cases hx

/-- A constraint that a triple expression gives is given by one of its parts. -/
theorem exists_part_gives_of_triple {e : TripleEntry} (h : (Entry.triple e).Gives nc) :
    ∃ part ∈ (Entry.triple e).parts, part.Gives nc := by
  obtain ⟨x, hx, hnc⟩ := h
  cases e with
  | reference label =>
    obtain ⟨r, -, hx⟩ := exists_of_bind_eq_ok hx
    cases hx
    cases hnc
  | eachOf id g =>
    rw [TripleEntry.expression] at hx
    obtain ⟨label, -, hx⟩ := exists_of_bind_eq_ok hx
    obtain ⟨y, hy, hx⟩ := exists_of_bind_eq_ok hx
    cases hx
    exact exists_gives_of_toGroup hy hnc
  | oneOf id g =>
    rw [TripleEntry.expression] at hx
    obtain ⟨label, -, hx⟩ := exists_of_bind_eq_ok hx
    obtain ⟨y, hy, hx⟩ := exists_of_bind_eq_ok hx
    cases hx
    exact exists_gives_of_toGroup hy hnc
  | triple id t =>
    rw [TripleEntry.expression] at hx
    obtain ⟨label, -, hx⟩ := exists_of_bind_eq_ok hx
    obtain ⟨y, hy, hx⟩ := exists_of_bind_eq_ok hx
    cases hx
    exact exists_gives_of_toConstraint hy hnc

/-- A constraint that an expression gives is its own or given by one of its parts. -/
theorem gives_cases {e : Entry} (h : e.Gives nc) :
    (∃ id c, e = .shape (.node id c) ∧ c.expression = .ok (.node nc)) ∨
      ∃ part ∈ e.parts, part.Gives nc := by
  cases e with
  | shape e =>
    rcases gives_cases_of_shape h with ⟨id, c, rfl, hc⟩ | hpart
    · exact .inl ⟨id, c, rfl, hc⟩
    · exact .inr hpart
  | triple e => exact .inr (exists_part_gives_of_triple h)

/-- A constraint that an expression gives is the one of a node constraint in it. -/
theorem exists_within_of_gives {e : Entry} (h : e.Gives nc) :
    ∃ id c, Within (.shape (.node id c)) e ∧ c.expression = .ok (.node nc) := by
  induction e using postOrder.induct with
  | case1 e ih =>
    rcases gives_cases h with ⟨id, c, rfl, hc⟩ | ⟨part, hpart, h⟩
    · exact ⟨id, c, .refl, hc⟩
    · obtain ⟨id, c, hwithin, hc⟩ := ih ⟨part, hpart⟩ h
      exact ⟨id, c, hwithin.head hpart, hc⟩

end Entry

/-! ## Documents -/

/-- A constraint that an expression of a document gives is the one of a node constraint of the
document. -/
theorem Document.exists_entry_of_gives {d : Document} {e : Entry} (he : d.Contains e)
    {nc : NodeConstraint} (h : e.Gives nc) :
    ∃ id c, d.Contains (.shape (.node id c)) ∧ c.expression = .ok (.node nc.unnumbered) := by
  obtain ⟨id, c, hwithin, hc⟩ := Entry.exists_within_of_gives h
  obtain ⟨top, htop, he⟩ := he
  refine ⟨id, c, ⟨top, htop, he.trans hwithin⟩, ?_⟩
  rcases c.expression_cases hc with ⟨-, heq⟩ | ⟨nc', heq, hnumber, -⟩
  · cases heq
  · cases heq
    rw [hnumber]
    exact hc

/-- What an entry of the shapes list declares stands in the document. -/
theorem Document.contains_declared {d : Document} {e : ShapeEntry} (he : e ∈ d.shapes) :
    d.Contains (.shape e.declared) := by
  have hcontains : Entry.Within (.shape e.declared) (.shape e) := by
    cases e with
    | declaration id isAbstract e => exact .single (List.mem_singleton_self (Entry.shape e))
    | _ => exact .refl
  exact ⟨e, List.mem_append_left _ he, hcontains⟩

/-- The node constraints of a loaded schema say what node constraints of the document say. -/
theorem Document.exists_entry_of_load {d : Document} {s : Schema} (h : d.load = .ok s) :
    s.AllConstraints fun nc =>
      ∃ id c, d.Contains (.shape (.node id c)) ∧ c.expression = .ok (.node nc) := by
  unfold Document.load at h
  obtain ⟨imports, -, h⟩ := exists_of_bind_eq_ok h
  obtain ⟨startActs, -, h⟩ := exists_of_bind_eq_ok h
  obtain ⟨listed, hlisted, h⟩ := exists_of_bind_eq_ok h
  obtain ⟨start, hstart, h⟩ := exists_of_bind_eq_ok h
  obtain ⟨inline, hinline, h⟩ := exists_of_bind_eq_ok h
  obtain ⟨triples, htriples, h⟩ := exists_of_bind_eq_ok h
  cases h
  refine Schema.AllConstraints.withTriples
    (Schema.AllConstraints.addShapes ?_ fun decl hdecl => ?_) fun entry hentry => ?_
  · cases hentry : d.start with
    | none =>
      rw [hentry] at hstart
      cases hstart
      exact fun nc hnc => nomatch hnc
    | some e =>
      rw [hentry] at hstart
      obtain ⟨x, hx, hstart⟩ := exists_of_bind_eq_ok hstart
      cases hstart
      refine Schema.AllConstraints.setStart (fun nc hnc => nomatch hnc) fun nc hnc => ?_
      have he : d.Contains (.shape e) :=
        ⟨e, List.mem_append_right _ (Option.mem_toList.2 hentry), .refl⟩
      exact exists_entry_of_gives he ⟨x, hx, hnc⟩
  · rcases List.mem_append.1 hdecl with hdecl | hdecl
    · obtain ⟨entry, hentry, hentryDecl⟩ := (exists_of_forall₂ (mapM_eq_ok_iff.1 hinline)).2 _ hdecl
      rw [labelled_eq, List.mem_flatMap] at hentry
      obtain ⟨e, he, hunder⟩ := hentry
      obtain ⟨id, hid, rfl⟩ := Option.map_eq_some_iff.1 (Option.mem_toList.1 hunder)
      have hcontains := contains_shape_iff.2 (List.mem_append_left d.shapes he)
      have hexpression := (inline_of_inlineDeclaration hid hentryDecl).expression
      exact fun nc hnc => exists_entry_of_gives hcontains ⟨_, hexpression, hnc⟩
    · obtain ⟨e, he, hdecl⟩ := (exists_of_forall₂ (mapM_eq_ok_iff.1 hlisted)).2 _ hdecl
      have hexpression := (listed_of_toDeclaration hdecl).expression
      exact fun nc hnc =>
        exists_entry_of_gives (contains_declared he) ⟨_, hexpression, hnc⟩
  · obtain ⟨labelled, hlabelled, hentryTriple⟩ :=
      (exists_of_forall₂ (mapM_eq_ok_iff.1 htriples)).2 _ hentry
    rw [labelledTriples_eq, List.mem_flatMap] at hlabelled
    obtain ⟨e, he, hunder⟩ := hlabelled
    obtain ⟨id, hid, rfl⟩ := Option.map_eq_some_iff.1 (Option.mem_toList.1 hunder)
    have hexpression := (labelledAs_of_labelledTriple hid hentryTriple).expression
    exact fun nc hnc =>
      exists_entry_of_gives (contains_triple_iff.2 he) ⟨_, hexpression, hnc⟩

end ShExJ

end ShEx
