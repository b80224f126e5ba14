import ShEx.Proofs.Calls

/-!
# The answers of constraints

The answers of constraints are kept by number, so they are right only if a number stands for one
constraint, wherever constraints stand.  Numbers are given out by one walk through an expression,
and evaluation takes another one: what is numbered (`Schema.constraints`) is what stands at any
depth of a schema (`Schema.constraints_eq_places`).

So in a schema that is built step by step every place of a constraint has a number of its own
(`Built.distinct`), a session holds answers for these numbers only (`conserves_owned`), and each of
them is what evaluating the constraint with that number gives (`constraints_recalled`).
-/

set_option autoImplicit false

namespace ShEx

open ShEx.Rdf

variable {w : Setting}

/-! ## The constraints of a schema -/

namespace Schema

/-- The constraints that stand in a schema at any depth, each as often as it stands there. -/
def places (s : Schema) : List NodeConstraint := s.expressions.filterMap ShapeExpr.constraint?

/-- The constraints that are numbered are those that stand in the schema, in the same order. -/
theorem constraints_eq_places (s : Schema) : s.constraints = s.places := by
  have hdeclarations : (s.declarations.flatMap fun d => d.expression.constraints) =
      (s.declarations.flatMap fun d => d.expression.parts).filterMap ShapeExpr.constraint? := by
    rw [List.filterMap_flatMap]
    exact List.flatMap_congr fun d _ => d.expression.constraints_eq_parts
  have hvalues : ∀ ts : List TripleConstraint, ts.flatMap TripleConstraint.constraints =
      (valueParts ts).filterMap ShapeExpr.constraint? := by
    intro ts
    rw [flatMap_constraints_eq, valueParts, List.filterMap_flatMap]
    exact List.flatMap_congr fun v _ => v.constraints_eq_parts
  have htriples : (s.tripleExpressions.flatMap fun entry => entry.2.constraints) =
      (s.tripleExpressions.flatMap fun entry => valueParts entry.2.triples).filterMap
        ShapeExpr.constraint? := by
    rw [List.filterMap_flatMap]
    refine List.flatMap_congr fun entry _ => ?_
    rw [TripleExpr.constraints_eq, hvalues]
  have hstart : s.start.elim [] ShapeExpr.constraints =
      (s.start.elim [] ShapeExpr.parts).filterMap ShapeExpr.constraint? := by
    cases s.start with
    | none => rfl
    | some e => exact e.constraints_eq_parts
  rw [constraints, places, expressions, List.filterMap_append, List.filterMap_append,
    hdeclarations, htriples, hstart]

end Schema

/-- A declaration and a labelled triple expression that replace earlier ones and refer to each
other, and a start expression, with constraints in all of them; the declaration fails. -/
def Schema.replacing : Schema :=
  ((((Schema.empty.addShape ⟨.iri ⟨"A"⟩, false, .node .any⟩).addTripleExpression
    (.iri ⟨"T"⟩) (.triple (.to ⟨"p"⟩ (.node .any)))).addShape
      ⟨.iri ⟨"A"⟩, false,
        .and [.not (.not (.node .any)), .shape (.ofLabel (.iri ⟨"T"⟩)), .external]⟩
    ).addTripleExpression (.iri ⟨"T"⟩)
      (.triple (.to ⟨"p"⟩ (.and [.node .any, .ref (.iri ⟨"A"⟩)])))).setStart (.node .any)

/-- The schema with replaced parts on a graph that turns in a circle. -/
def Setting.replacing : Setting := ⟨.replacing, circle, circle.asInserted, .standard⟩

/-! ## Answers and their constraints -/

namespace Session

/-- Every answer that is held under a number is the one of the only constraint of the schema with
this number. -/
def Recalls (w : Setting) (s : Session) : Prop :=
  ∀ index node b, s.constraints.answer? index node = some b →
    ∃ c ∈ w.schema.places, c.id = some index ∧
      (∀ c' ∈ w.schema.places, c'.id = some index → c' = c) ∧
      (c.evaluate w.limits.maxRegexLength node []).1 = .ok b ∧
      (c.evaluate w.limits.maxRegexLength node s.patterns).1 = .ok b

/-- Answers are held under numbers of the schema. -/
def Owned (w : Setting) (s : Session) : Prop :=
  ∀ index node b, s.constraints.answer? index node = some b →
    ∃ c ∈ w.schema.constraints, c.id = some index

/-- Answers are recorded under the numbers of constraints in the schema only. -/
theorem conserves_owned (w : Setting) : w.Conserves (·.NumberedIn w.schema) (·.Owned w) where
  embeds _ _ h he := he.embeds h
  declared _ := ShapeExpr.numberedIn_of_declared
  constraint c node s t r he h hs := by
    refine Setting.evaluateConstraint_keeps (I := (·.Owned w)) h hs ?_ ?_
    · intro r u hf
      obtain ⟨-, rfl⟩ := Setting.evaluateFresh_eq_some_iff.1 hf
      exact hs
    · intro number a u hid hu index m b hb
      rcases Answers.answer?_hold_cases hb with ⟨⟨rfl, rfl⟩, -⟩ | ⟨-, hb⟩
      · have hmem := (he c (List.mem_singleton.2 rfl)).resolve_left (by rw [hid]; exact nofun)
        exact ⟨c, hmem, hid⟩
      · exact hu index m b hb
  congr s t hconstraints _ hs := by
    intro index node b hb
    rw [hconstraints] at hb
    exact hs index node b hb

/-- What is right about constraints of the schema is held under their numbers only. -/
theorem Sound.recalls (hw : WellNumbered w.schema.constraints) {s : Session} (hs : s.Sound w)
    (howned : s.Owned w) : s.Recalls w := by
  intro index node b hb
  obtain ⟨c, hc, hid⟩ := howned index node b hb
  have hanswer : (c.evaluate w.limits.maxRegexLength node []).1 = .ok b :=
    hs.constraints c hc index hid node b hb
  rw [Schema.constraints_eq_places] at hw hc
  refine ⟨c, hc, hid, fun c' hc' hid' => hw c' hc' c hc index hid' hid, hanswer, ?_⟩
  rw [(c.evaluate_sound w.limits.maxRegexLength node s.patterns hs.patterns).1]
  exact hanswer

/-- In a schema that is built step by step every place of a constraint has a number of its own.  So
whatever calls a session has answered, and at each moment of a call, an answer that is held under a
number is the one of the constraint with this number, if the constraints that callers bring have no
number or are constraints of the schema. -/
theorem constraints_recalled (hbuilt : w.schema.Built) :
    (∀ c ∈ w.schema.places, ∃ index, c.id = some index ∧ index < w.schema.nextConstraint) ∧
      (w.schema.places.map (·.id)).Nodup ∧
      ∀ s : Session, s.Visited w w.Proper → s.Recalls w ∧
        ∀ c q u e node begun v, (∀ q ∈ c.requests, w.Proper q) → Makes w s c q u →
          w.question? q = some (e, node) → w.Moment ⟨e, node, u⟩ begun v → v.Recalls w := by
  have hw := hbuilt.wellNumbered
  have hsound := Setting.conserves_sound hw
  obtain ⟨hids, hnodup⟩ := hbuilt.distinct
  rw [Schema.constraints_eq_places] at hids hnodup
  refine ⟨hids, hnodup, fun s hs => ?_⟩
  have hattained : ∀ {u : Session}, u.Attained w w.Proper → u.Sound w ∧ u.Owned w := fun hu =>
    ⟨(Setting.reliable_of_attained hw hu).sound,
      hu.conserved (conserves_owned w) (fun _ hq _ _ => hq.numberedIn) nofun fun _ _ => nofun⟩
  refine ⟨(hattained hs.attained).1.recalls hw (hattained hs.attained).2, ?_⟩
  intro c q u e node begun v hc hmakes hq hmoment
  obtain ⟨hu, hproper⟩ := hmakes.attained hs.attained hc
  obtain ⟨hsoundu, hownedu⟩ := hattained hu
  have hnumbered := hproper.numberedIn hq
  exact (hsound.moment hmoment hnumbered hsoundu).recalls hw
    ((conserves_owned w).moment hmoment hnumbered hownedu)

/-- Behind a call that failed, the constraint of a declaration and the one of a labelled triple
expression are answered under the numbers that they have since they replaced others. -/
theorem constraints_recalled_replacing : ∃ s : Session, Schema.replacing.Built ∧
    s.Visited .replacing Setting.replacing.Proper ∧ s.declarations = [] ∧
    Schema.replacing.places.map (·.id) = [some 2, some 3, some 4] ∧
    s.constraints.map (·.1.1) = [3, 2] ∧ s.Recalls .replacing := by
  have hbuilt : Schema.replacing.Built := by
    apply Schema.Built.setStart
    apply Schema.Built.addTripleExpression
    apply Schema.Built.addShape
    apply Schema.Built.addTripleExpression
    apply Schema.Built.addShape
    exact .empty
  have hplaces : Schema.replacing.places.map (·.id) = [some 2, some 3, some 4] := by
    rw [← Schema.constraints_eq_places]
    rfl
  have hs : Visited .replacing Setting.replacing.Proper _ :=
    .after .initial (c := .request (.named "n" "A"))
      (fun q hq => by rw [List.mem_singleton.1 hq]; trivial) rfl
  obtain ⟨-, -, hrecalls⟩ := constraints_recalled (w := .replacing) hbuilt
  exact ⟨_, hbuilt, hs, rfl, hplaces, rfl, (hrecalls _ hs).1⟩

end Session

end ShEx
