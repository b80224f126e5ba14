import ShEx.Proofs.ConstraintAnswers
import ShEx.Proofs.RecursionDepth
import ShEx.Schema.Check

/-!
# Schemas whose patterns can be used

The check of patterns compiles every pattern that stands in a schema, in one walk over its
constraints (`Schema.checkPatterns_eq`).  An evaluation comes to constraints in its own order, and
keeps the patterns that it has compiled.

A pattern that is reported as malformed stands in a constraint that the evaluation has come to, and
was not compiled before (`Setting.Returns.malformed`).  So if the check accepts a schema, and none
of its patterns is too long, no request is answered by such a report, whatever patterns the session
keeps (`Session.checkPatterns_sound`).
-/

set_option autoImplicit false

namespace ShEx

open ShEx.Rdf

/-! ## The patterns in a schema -/

namespace Schema

variable {s : Schema}

/-- A pattern stands in a schema: in a constraint at any depth of its expressions. -/
def HasPattern (s : Schema) (facet : PatternFacet) : Prop :=
  ∃ c, .node c ∈ s.expressions ∧ .pattern facet ∈ c.strings

/-- The patterns that are checked in a constraint are those among the facets of its string. -/
theorem mem_patternsOf {c : NodeConstraint} {facet : PatternFacet} :
    facet ∈ patternsOf c ↔ .pattern facet ∈ c.strings := by
  rw [patternsOf, List.mem_filterMap]
  constructor
  · rintro ⟨other, hmem, heq⟩
    cases other with
    | pattern p =>
      cases heq
      exact hmem
    | _ => cases heq
  · intro hmem
    exact ⟨.pattern facet, hmem, rfl⟩

/-- The constraints that are collected from a schema are those that stand in it. -/
theorem mem_constraints_iff_expressions {c : NodeConstraint} :
    c ∈ s.constraints ↔ .node c ∈ s.expressions := by
  rw [constraints_eq_places, places, List.mem_filterMap]
  constructor
  · rintro ⟨e, he, heq⟩
    cases e with
    | node c' =>
      cases heq
      exact he
    | _ => cases heq
  · intro he
    exact ⟨.node c, he, rfl⟩

/-- The patterns that are checked are those that stand in the schema. -/
theorem mem_checked_patterns {facet : PatternFacet} :
    facet ∈ s.constraints.flatMap patternsOf ↔ s.HasPattern facet := by
  rw [List.mem_flatMap]
  constructor
  · rintro ⟨c, hc, hfacet⟩
    exact ⟨c, mem_constraints_iff_expressions.1 hc, mem_patternsOf.1 hfacet⟩
  · rintro ⟨c, hc, hfacet⟩
    exact ⟨c, mem_constraints_iff_expressions.2 hc, mem_patternsOf.2 hfacet⟩

/-- A check that finds nothing has compiled every pattern. -/
theorem compileAll_ok {facets : List PatternFacet} (h : compileAll facets = .ok ()) :
    ∀ facet ∈ facets, ∃ regex, Pattern.compile facet = .ok regex := by
  induction facets with
  | nil => nofun
  | cons first rest ih =>
    unfold compileAll at h
    split at h
    · cases h
    · next regex hregex =>
      intro facet hfacet
      rcases List.mem_cons.1 hfacet with rfl | hfacet
      · exact ⟨regex, hregex⟩
      · exact ih h facet hfacet

/-- A check that fails has met a pattern that cannot be compiled, and reports why. -/
theorem compileAll_error {facets : List PatternFacet} {failure : Failure}
    (h : compileAll facets = .error failure) :
    ∃ facet ∈ facets, ∃ fault, Pattern.compile facet = .error fault ∧
      failure = .malformedPattern facet.pattern fault := by
  induction facets with
  | nil => cases h
  | cons first rest ih =>
    unfold compileAll at h
    split at h
    · next fault hfault =>
      cases h
      exact ⟨first, List.mem_cons_self, fault, hfault, rfl⟩
    · obtain ⟨facet, hfacet, hrest⟩ := ih h
      exact ⟨facet, List.mem_cons_of_mem _ hfacet, hrest⟩

/-- The check of patterns accepts a schema whose patterns are all regular expressions, and no other.
What it reports is why one of them is not. -/
theorem checkPatterns_eq (s : Schema) :
    (s.checkPatterns = .ok () ↔
      ∀ facet, s.HasPattern facet → ∃ regex, Pattern.compile facet = .ok regex) ∧
    ∀ failure, s.checkPatterns = .error failure →
      ∃ facet fault, s.HasPattern facet ∧ Pattern.compile facet = .error fault ∧
        failure = .malformedPattern facet.pattern fault := by
  have herror : ∀ failure, s.checkPatterns = .error failure →
      ∃ facet fault, s.HasPattern facet ∧ Pattern.compile facet = .error fault ∧
        failure = .malformedPattern facet.pattern fault := by
    intro failure h
    obtain ⟨facet, hfacet, fault, hfault, hfailure⟩ := compileAll_error h
    exact ⟨facet, fault, mem_checked_patterns.1 hfacet, hfault, hfailure⟩
  refine ⟨⟨fun hok facet hfacet => ?_, fun hall => ?_⟩, herror⟩
  · exact compileAll_ok hok facet (mem_checked_patterns.2 hfacet)
  · cases hcheck : s.checkPatterns with
    | ok u => rfl
    | error failure =>
      obtain ⟨facet, fault, hfacet, hfault, -⟩ := herror failure hcheck
      obtain ⟨regex, hregex⟩ := hall facet hfacet
      rw [hfault] at hregex
      cases hregex

end Schema

/-- Within its limit a pattern is compiled as without one. -/
theorem Pattern.compileWithin_of_le {limit : Nat} {facet : PatternFacet}
    (h : facet.pattern.utf8ByteSize ≤ limit) : compileWithin limit facet = compile facet :=
  if_neg (Nat.not_lt_of_le h)

/-! ## Patterns that are reported -/

namespace Setting

variable {w : Setting}

/-- A pattern is reported by a constraint that has it among its facets, and cannot use it. -/
theorem Raises.malformed {q : Question} {pattern : String} {fault : Pattern.Fault}
    (h : w.Raises q (.malformedPattern pattern fault)) :
    ∃ c facet, q.expression = .node c ∧ .pattern facet ∈ c.strings ∧ facet.pattern = pattern ∧
      Pattern.compileWithin w.limits.maxRegexLength facet = .error fault := by
  rcases h.cases with ⟨_, hf⟩ | ⟨_, -, hf⟩ | ⟨c, he, facet, _, hmem, hfault, hf⟩ |
    ⟨_, _, _, -, -, -, -, hf⟩
  · cases hf
  · cases hf
  · cases hf
    exact ⟨c, facet, he, hmem, rfl, hfault⟩
  · cases hf

/-- A pattern that an evaluation reports stands in a constraint that it can come to. -/
theorem Returns.malformed {all : List ShapeExpr} (hall : w.schema.Closed all) {e : ShapeExpr}
    (he : e ∈ all) {node : Term} {s t : Session} {pattern : String} {fault : Pattern.Fault}
    (h : w.Returns e node s (.error (.malformedPattern pattern fault)) t) :
    ∃ c facet, .node c ∈ all ∧ .pattern facet ∈ c.strings ∧ facet.pattern = pattern ∧
      Pattern.compileWithin w.limits.maxRegexLength facet = .error fault := by
  obtain ⟨begun, q, hamid, hraises⟩ := h.exists_raises
  obtain ⟨c, facet, hq, hmem, hpattern, hfault⟩ := hraises.malformed
  have hc : q.expression ∈ all := hamid.mem_closed hall he
  rw [hq] at hc
  exact ⟨c, facet, hc, hmem, hpattern, hfault⟩

end Setting

namespace Session

/-- A constraint in the expression that a request is about stands in the schema: a reference is no
constraint, and the start expression is one of the schema. -/
theorem mem_expressions_of_opening {w : Setting} {label : Option Label} {e : ShapeExpr}
    {c : NodeConstraint} (h : w.opening label = some e) (hc : .node c ∈ e.parts) :
    .node c ∈ w.schema.expressions := by
  cases label with
  | some l =>
    cases h
    have hparts : (ShapeExpr.ref l).parts = [.ref l] := ShapeExpr.parts_eq _
    rw [hparts] at hc
    cases List.mem_singleton.1 hc
  | none => exact Schema.mem_expressions.2 (.inr (.inr ⟨e, h, hc⟩))

/-- A pattern that is reported to a request for a label or the start expression stands in the
schema, and cannot be used. -/
theorem exists_pattern_of_validate {w : Setting} {s t : Session} {node : Term}
    {label : Option Label} {pattern : String} {fault : Pattern.Fault}
    (h : s.validate w node label = some (.error (.malformedPattern pattern fault), t)) :
    ∃ facet, w.schema.HasPattern facet ∧ facet.pattern = pattern ∧
      Pattern.compileWithin w.limits.maxRegexLength facet = .error fault := by
  have hresponds := validate_eq_some_iff.1 h
  unfold Setting.Responds at hresponds
  cases hrefusal : w.refusal? with
  | some feature =>
    rw [hrefusal] at hresponds
    cases hresponds.1
  | none =>
    rw [hrefusal] at hresponds
    cases hopening : w.opening label with
    | none =>
      rw [hopening] at hresponds
      cases hresponds.1
    | some e =>
      rw [hopening] at hresponds
      obtain ⟨c, facet, hc, hmem, hfacet⟩ := Setting.Returns.malformed (w.schema.closed_parts e)
        (List.mem_append_left _ (ShapeExpr.mem_parts_self e)) hresponds
      refine ⟨facet, ⟨c, ?_, hmem⟩, hfacet⟩
      rcases List.mem_append.1 hc with hc | hc
      · exact mem_expressions_of_opening hopening hc
      · exact hc

/-- The check of patterns accepts a schema if and only if every pattern that stands in it is a
regular expression; otherwise it reports why one of them is not.

If it accepts a schema whose patterns are not too long for the limit of a setting, no request for a
label or the start expression reports a pattern, at any node of any graph and from every state of a
session. -/
theorem checkPatterns_sound (s : Schema) :
    (s.checkPatterns = .ok () ↔
      ∀ facet, s.HasPattern facet → ∃ regex, Pattern.compile facet = .ok regex) ∧
    (∀ failure, s.checkPatterns = .error failure →
      ∃ facet fault, s.HasPattern facet ∧ Pattern.compile facet = .error fault ∧
        failure = .malformedPattern facet.pattern fault) ∧
    (s.checkPatterns = .ok () → ∀ w : Setting, w.schema = s →
      (∀ facet, s.HasPattern facet → facet.pattern.utf8ByteSize ≤ w.limits.maxRegexLength) →
        ∀ (t u : Session) (node : Term) (label : Option Label) (pattern : String)
          (fault : Pattern.Fault),
          t.validate w node label ≠ some (.error (.malformedPattern pattern fault), u)) := by
  refine ⟨(Schema.checkPatterns_eq s).1, (Schema.checkPatterns_eq s).2, ?_⟩
  rintro hok w rfl hshort t u node label pattern fault h
  obtain ⟨facet, hfacet, -, hfault⟩ := exists_pattern_of_validate h
  obtain ⟨regex, hregex⟩ := (Schema.checkPatterns_eq w.schema).1.1 hok facet hfacet
  rw [Pattern.compileWithin_of_le (hshort facet hfacet), hregex] at hfault
  cases hfault

end Session

/-! ## Patterns in every place -/

/-- The constraint that asks for a pattern. -/
def NodeConstraint.ofPattern (facet : PatternFacet) : NodeConstraint :=
  ⟨none, none, [.pattern facet], [], [], none⟩

/-- A labelled triple expression, a declaration that refers to it and a start expression, with
patterns in all of them. -/
def Schema.patterned (inTriple inDeclaration inStart : PatternFacet) : Schema :=
  ((Schema.empty.addTripleExpression (.iri ⟨"T"⟩)
    (.triple (.to ⟨"p"⟩ (.node (.ofPattern inTriple))))).addShape
      ⟨.iri ⟨"A"⟩, false,
        .and [.node (.ofPattern inDeclaration), .shape (.ofLabel (.iri ⟨"T"⟩))]⟩).setStart
          (.not (.node (.ofPattern inStart)))

/-- Patterns that are regular expressions, one of them for its flag only. -/
def Setting.patterned : Setting where
  schema := .patterned ⟨"^n", none⟩ ⟨"N|m", some "s"⟩ ⟨"(", some "q"⟩
  graph := circle
  listing := circle.asInserted
  limits := .standard

namespace Session

/-- The patterns of this schema pass the check, so none of them is reported later. -/
theorem checkPatterns_sound_patterned :
    Setting.patterned.schema.checkPatterns = .ok () ∧
      (∀ facet, Setting.patterned.schema.HasPattern facet →
        facet.pattern.utf8ByteSize ≤ Setting.patterned.limits.maxRegexLength) ∧
      ∀ (t u : Session) (node : Term) (label : Option Label) (pattern : String)
        (fault : Pattern.Fault),
        t.validate .patterned node label ≠ some (.error (.malformedPattern pattern fault), u) := by
  have hok : Setting.patterned.schema.checkPatterns = .ok () := by rfl
  have hshort : ∀ facet, Setting.patterned.schema.HasPattern facet →
      facet.pattern.utf8ByteSize ≤ Setting.patterned.limits.maxRegexLength := by
    have hall : Setting.patterned.schema.constraints.flatMap Schema.patternsOf =
        [⟨"N|m", some "s"⟩, ⟨"^n", none⟩, ⟨"(", some "q"⟩] := by rfl
    intro facet hfacet
    have hmem := Schema.mem_checked_patterns.2 hfacet
    rw [hall] at hmem
    rcases List.mem_cons.1 hmem with rfl | hmem
    · decide
    rcases List.mem_cons.1 hmem with rfl | hmem
    · decide
    · rw [List.mem_singleton.1 hmem]
      decide
  exact ⟨hok, hshort, (checkPatterns_sound Setting.patterned.schema).2.2 hok _ rfl hshort⟩

/-- A pattern in a value expression that is no regular expression is reported by the check. -/
example : (Schema.patterned ⟨"(", none⟩ ⟨"N|m", some "s"⟩ ⟨"(", some "q"⟩).checkPatterns =
    .error (.malformedPattern "(" .malformed) := by rfl

end Session

end ShEx
