import ShEx.Proofs.RecursionDepth
import ShEx.Proofs.SearchCeiling

/-!
# Shapes that are refused

A shape is compiled before any arc is looked at.  So a shape that asks for something that is not
supported, be it below references and beside unknown ones, is refused with one and the same failure
at every node, over all graphs and in every state (`Session.validateExpr_unsupported`).

One of the failures of compilation reports a circular reference.  It is raised by a shape that
reveals a label that reveals itself, or one that is known and whose chain of references ends with an
unknown label (`Setting.exists_circular`).  In the second case there is no circle: a reference to an
unknown label is never satisfied, but a reference to that reference is refused
(`Session.validateExpr_circular`, `Session.validateExpr_circular_misleading`).
-/

set_option autoImplicit false

namespace ShEx

open ShEx.Rdf

/-! ## Refused shapes -/

namespace Setting

variable {w : Setting} {shape : Shape} {node : Term} {s : Session} {failure : Failure}

/-- A shape that is not compiled is refused before anything is asked. -/
theorem returns_of_compileShape_error (h : w.schema.compileShape shape = .error failure) :
    w.Returns (.shape shape) node s (.error failure) s := by
  have hinquiry : w.inquiry (.shape shape) node = .failed failure := by
    show w.shapeInquiry shape node = _
    rw [shapeInquiry_eq, h]
    rfl
  apply returns_iff.2
  apply OneStep.compound rfl
  rw [hinquiry]
  exact ⟨rfl, rfl⟩

end Setting

/-- A shape asks for something that is not supported, itself or in what its triple expression
reveals. -/
inductive Schema.Unsupported (s : Schema) (shape : Shape) : Prop
  | acts (h : shape.acts ≠ [])
  | extended (h : shape.extended ≠ [])
  | restricted (h : shape.restricted ≠ [])
  | groupCardinality {e : TripleExpr} {c : Cardinality} (he : s.Shows shape e)
      (hc : e.groupCardinality? = some c) (hne : c ≠ .one)
  | innerActs {e : TripleExpr} (he : s.Shows shape e) (ha : e.acts ≠ [])

namespace Schema

variable {s : Schema} {shape : Shape}

/-- A shape that is compiled has no actions, extends nothing and restricts nothing, and reveals
nothing that is not supported. -/
theorem clear_of_compileShape {compiled : Compiled} (h : s.compileShape shape = .ok compiled) :
    (shape.acts = [] ∧ shape.extended = [] ∧ shape.restricted = []) ∧
      ∀ e feature, s.Shows shape e → ¬s.Obstructs e feature := by
  constructor
  · unfold compileShape at h
    split at h
    · cases h
    next hacts =>
    split at h
    · cases h
    next hextended =>
    split at h
    · cases h
    next hrestricted =>
    simp only [Bool.not_eq_true', Bool.not_eq_false, List.isEmpty_iff]
      at hacts hextended hrestricted
    exact ⟨hacts, hextended, hrestricted⟩
  · rintro e feature ⟨te, hte, hreveals⟩
    have hcompile := compile_of_compileShape h
    rw [hte] at hcompile
    exact clear_of_compile hcompile e feature hreveals

/-- A shape that is not compiled is refused for a feature. -/
theorem compileShape_of_not_ok (h : ∀ compiled, s.compileShape shape ≠ .ok compiled) :
    ∃ feature, s.compileShape shape = .error (.notImplemented feature) := by
  cases hc : s.compileShape shape with
  | ok compiled => exact absurd hc (h compiled)
  | error failure =>
    obtain ⟨feature, rfl⟩ := unsupported_of_compileShape hc
    exact ⟨feature, rfl⟩

/-- A shape that asks for something that is not supported is refused for some feature. -/
theorem Unsupported.compileShape (h : s.Unsupported shape) :
    ∃ feature, s.compileShape shape = .error (.notImplemented feature) := by
  apply compileShape_of_not_ok
  intro compiled hc
  obtain ⟨⟨hacts, hextended, hrestricted⟩, hclear⟩ := clear_of_compileShape hc
  cases h with
  | acts h => exact h hacts
  | extended h => exact h hextended
  | restricted h => exact h hrestricted
  | groupCardinality he hc hne => exact hclear _ _ he (.cardinality hc hne)
  | innerActs he ha => exact hclear _ _ he (.acts ha)

/-- A shape is refused for something that is not supported, or for a label that reveals itself or is
known and leads to an unknown one; only then a circular reference is reported. -/
theorem compileShape_error_cases {failure : Failure} (h : s.compileShape shape = .error failure) :
    (s.Unsupported shape ∧ failure ≠ .notImplemented .recursiveTripleReferences) ∨
      ∃ label, s.Shows shape (.ref label) ∧ (s.Loops label ∨ s.Misleads label) := by
  unfold compileShape at h
  split at h
  · next hacts =>
    cases h
    exact .inl ⟨.acts (by simpa using hacts), nofun⟩
  split at h
  · next hextended =>
    cases h
    exact .inl ⟨.extended (by simpa using hextended), nofun⟩
  split at h
  · next hrestricted =>
    cases h
    exact .inl ⟨.restricted (by simpa using hrestricted), nofun⟩
  obtain ⟨te, hte, e, feature, hreveals, hobstructs, rfl⟩ := obstructed_of_compile h
  have hshows : s.Shows shape e := ⟨te, hte, hreveals⟩
  cases hobstructs with
  | cardinality he hc => exact .inl ⟨.groupCardinality hshows he hc, nofun⟩
  | acts he => exact .inl ⟨.innerActs hshows he, nofun⟩
  | loops hloops => exact .inr ⟨_, hshows, .inl hloops⟩
  | misleads hmisleads => exact .inr ⟨_, hshows, .inr hmisleads⟩

end Schema

namespace Session

/-- A shape that asks for something that is not supported is refused with the same failure by every
setting with its schema, at every node and in every session, which is left as it is. -/
theorem validateExpr_unsupported {schema : Schema} {shape : Shape}
    (h : schema.Unsupported shape) :
    ∃ feature, ∀ w : Setting, w.schema = schema → ∀ (node : Term) (s : Session),
      s.validateExpr w (.shape shape) node = some (.error (.notImplemented feature), s) := by
  obtain ⟨feature, hfeature⟩ := h.compileShape
  refine ⟨feature, fun w hschema node s => ?_⟩
  apply validateExpr_eq_some_iff.2
  apply Setting.returns_of_compileShape_error
  rw [hschema]
  exact hfeature

end Session

/-- A schema with a labelled group that has a group with a cardinality of its own inside. -/
def Schema.repeating : Schema :=
  Schema.empty.addTripleExpression (.iri ⟨"T"⟩)
    (.eachOf ⟨[.triple ⟨⟨"p"⟩, false, none, .one, []⟩,
      .oneOf ⟨[.triple ⟨⟨"q"⟩, false, none, .one, []⟩], some .zeroOrMore, []⟩], none, []⟩)

/-- A choice between an unknown label and a known one. -/
def Shape.choosing : Shape :=
  ⟨false, [], some (.oneOf ⟨[.ref (.iri ⟨"U"⟩), .ref (.iri ⟨"T"⟩)], none, []⟩), [], [], []⟩

/-- The cardinality stands below a reference beside an unknown one. -/
theorem Session.validateExpr_unsupported_repeating : ∃ feature, ∀ w : Setting,
    w.schema = .repeating → ∀ (node : Term) (s : Session),
      s.validateExpr w (.shape .choosing) node = some (.error (.notImplemented feature), s) := by
  have hreveals : Schema.repeating.Reveals
      (.oneOf ⟨[.ref (.iri ⟨"U"⟩), .ref (.iri ⟨"T"⟩)], none, []⟩)
      (.oneOf ⟨[.triple ⟨⟨"q"⟩, false, none, .one, []⟩], some .zeroOrMore, []⟩) := by
    refine .head (.oneOf (List.mem_cons_of_mem _ List.mem_cons_self)) ?_
    refine .head (.ref rfl) ?_
    exact .single (.eachOf (List.mem_cons_of_mem _ List.mem_cons_self))
  have hshows : Schema.repeating.Shows .choosing _ := ⟨_, rfl, hreveals⟩
  exact validateExpr_unsupported (.groupCardinality hshows rfl (by decide))

/-! ## References that are taken for circular ones -/

namespace Setting

variable {w : Setting} {node : Term} {s t : Session}

/-- A question fails by itself for a feature if it is a shape that is not compiled, is defined
elsewhere, or has an abstract declaration. -/
theorem Raises.unsupported_cases {q : Question} {feature : Feature}
    (h : w.Raises q (.notImplemented feature)) :
    (∃ shape, q.expression = .shape shape ∧
      w.schema.compileShape shape = .error (.notImplemented feature)) ∨
      feature = .externalShapes ∨ feature = .abstractShapes := by
  obtain ⟨e, node, s⟩ := q
  obtain ⟨t, h⟩ := h
  dsimp only at h ⊢
  cases h with
  | compound hc hq =>
    have hfails := hq.fails fun _ _ _ _ _ hr => hr.2
    cases e with
    | or operands => exact (not_fails_anyInquiry hfails).elim
    | and operands => exact (not_fails_allInquiry hfails).elim
    | not operand =>
      rcases Inquiry.fails_bind hfails with hfails | ⟨b, hfails⟩
      · exact (Inquiry.not_fails_question hfails).elim
      · exact hfails.elim
    | shape shape =>
      rcases fails_shapeInquiry hfails with hcompile | ⟨complexity, -, heq⟩
      · exact .inl ⟨shape, rfl, hcompile⟩
      · cases heq
    | external =>
      cases hfails
      exact .inr (.inl rfl)
    | node c => cases hc
    | ref label => cases hc
  | constraint hc =>
    obtain ⟨facet, fault, -, -, heq⟩ := evaluateConstraint_error hc
    cases heq
  | refused hl ha hd => exact .inr (.inr rfl)
  | abandoned he hr =>
    obtain ⟨-, b, hb⟩ := hr
    cases hb

/-- Where a circular reference is reported, a shape has been come to that reveals a label that
reveals itself, or one that is known and leads to an unknown one. -/
theorem exists_circular {e : ShapeExpr}
    (h : w.Returns e node s (.error (.notImplemented .recursiveTripleReferences)) t) :
    ∃ begun shape m u label, w.Amid ⟨e, node, s⟩ begun ⟨.shape shape, m, u⟩ ∧
      w.schema.Shows shape (.ref label) ∧ (w.schema.Loops label ∨ w.schema.Misleads label) := by
  obtain ⟨begun, ⟨e', m, u⟩, hamid, hraises⟩ := h.exists_raises
  rcases hraises.unsupported_cases with ⟨shape, heq, hcompile⟩ | hexternal | habstract
  · cases heq
    rcases Schema.compileShape_error_cases hcompile with ⟨-, hne⟩ | ⟨label, hshows, hlabel⟩
    · exact absurd rfl hne
    · exact ⟨begun, shape, m, u, label, hamid, hshows, hlabel⟩
  · cases hexternal
  · cases habstract

end Setting

/-! ## References that lead to an unknown label -/

/-- A reference that leads to an unknown label is never satisfied if it is to the unknown label, and
is taken for a circular one otherwise. -/
theorem Schema.compileTriple_of_dangles {s : Schema} {label : Label} (h : s.Dangles label) (n : Nat)
    {expanding : List Label} (hnew : label ∉ expanding) (slots : List TripleConstraint) :
    s.compileTriple (n + 1) expanding (.ref label) slots =
      if (s.tripleExpression? label).isSome then
        .error (.notImplemented .recursiveTripleReferences)
      else .ok (.value .unsatisfied, slots) := by
  have hcontains : expanding.contains label = false := by
    simpa using hnew
  have hresolve : s.resolveTriple? (.ref label) = none := by
    by_contra hsome
    obtain ⟨target, hr⟩ := Option.ne_none_iff_exists'.1 hsome
    exact not_dangles_of_follow? hr h
  simp only [compileTriple, TripleExpr.compileWith, hcontains, hresolve, Bool.false_eq_true,
    if_false]

/-- The shape that consists of a reference. -/
def Shape.ofReference (closed : Bool) (extra : List Iri) (label : Label) : Shape :=
  ⟨closed, extra, some (.ref label), [], [], []⟩

namespace Setting

variable {w : Setting} {shape : Shape} {node : Term} {s : Session}

/-- Without slots there is nothing to choose. -/
theorem openChoices_of_no_slots {holds : ShapeExpr → Term → Bool}
    (hplaced : ∀ arc ∈ outgoingArcs w.listing node, shape.places holds [] arc ≠ []) :
    openChoices ((w.dueArcs holds [] node).map (shape.places holds [])) = [] := by
  apply List.filter_eq_nil_iff.2
  intro options hmem
  obtain ⟨arc, harc, rfl⟩ := List.mem_map.1 hmem
  have hsome := places_ne_nil hplaced harc
  have hplaces : shape.places holds [] arc =
      if !arc.inverse && shape.allowsExtra [] arc.predicate then [.extra] else [] := rfl
  rw [hplaces] at hsome ⊢
  split
  · simp
  · next hnone => exact absurd (if_neg hnone) hsome

/-- A shape that is compiled to a formula that is never satisfied, without slots, does not hold, and
the session is left as it is. -/
theorem returns_of_unsatisfiable
    (h : w.schema.compileShape shape = .ok (.value .unsatisfied, [])) :
    w.Returns (.shape shape) node s (.ok false) s := by
  have hasksNothing : ∀ e m, ¬(w.shapeInquiry shape node).Mentions e m := by
    intro e m hmentions
    obtain ⟨f, slots, hcompile, arc, -, t, ht, -⟩ := mentions_shapeInquiry hmentions
    cases (Schema.compile_of_compileShape h).symm.trans hcompile
    cases ht
  have hanswers : w.Answers (w.shapeInquiry shape node) s :=
    fun e m t hreach => (hasksNothing e m hreach.mentions).elim
  have hhears : w.Hears (w.shapeInquiry shape node) s fun _ _ => false :=
    fun e m t b u hreach => (hasksNothing e m hreach.mentions).elim
  -- There are no slots, so the arcs are extra ones or the shape is stuck; either way it does not
  -- hold.
  have hanswer : (w.shapeInquiry shape node).answer (fun _ _ => false) = .ok false := by
    rw [answer_shapeInquiry_of_compile _ h]
    split
    · rfl
    · next hfree =>
      have hplaced : ∀ arc ∈ outgoingArcs w.listing node,
          shape.places (fun _ _ => false) [] arc ≠ [] := by
        intro arc harc hnone
        exact hfree (List.any_eq_true.2 ⟨arc, harc, List.isEmpty_iff.2 hnone⟩)
      have hopen := openChoices_of_no_slots hplaced
      unfold dueArcs at hopen
      simp only [decideAssignment, hopen, List.isEmpty_nil, Bool.not_true, Bool.false_and,
        Bool.false_eq_true, if_false]
      rfl
  obtain ⟨t, hfollows⟩ := hanswers.follows hhears
  have ht : t = s := by
    refine hfollows.invariant (I := fun u => u = s) (Q := fun _ _ => False) ?_ hasksNothing rfl
    intro e m u r v _ hfalse
    exact hfalse.elim
  rw [hanswer, ht] at hfollows
  apply returns_iff.2
  exact .compound rfl hfollows

end Setting

namespace Session

/-- If a circular reference is reported, a shape has been come to that reveals a label that reveals
itself, or one that is known and leads to an unknown one; and a shape that reveals such a label is
always refused.  A reference that leads to an unknown label is never satisfied, wherever it stands,
if its own label is unknown, and a circular one otherwise; and a shape that consists of it does not
hold, or is refused. -/
theorem validateExpr_circular (w : Setting) (shape : Shape) (node : Term) (s : Session) :
    (∀ t, s.validateExpr w (.shape shape) node =
        some (.error (.notImplemented .recursiveTripleReferences), t) →
      ∃ begun shape' m u label, w.Amid ⟨.shape shape, node, s⟩ begun ⟨.shape shape', m, u⟩ ∧
        w.schema.Shows shape' (.ref label) ∧ (w.schema.Loops label ∨ w.schema.Misleads label)) ∧
    (∀ label, w.schema.Shows shape (.ref label) →
      w.schema.Loops label ∨ w.schema.Misleads label → ∃ feature,
        s.validateExpr w (.shape shape) node = some (.error (.notImplemented feature), s)) ∧
    ∀ label, w.schema.Dangles label →
      (∀ n expanding slots, label ∉ expanding →
        w.schema.compileTriple (n + 1) expanding (.ref label) slots =
          if (w.schema.tripleExpression? label).isSome then
            .error (.notImplemented .recursiveTripleReferences)
          else .ok (.value .unsatisfied, slots)) ∧
      ∀ closed extra, s.validateExpr w (.shape (.ofReference closed extra label)) node =
        some (if (w.schema.tripleExpression? label).isSome then
          .error (.notImplemented .recursiveTripleReferences) else .ok false, s) := by
  refine ⟨fun t h => ?_, fun label hshows hlabel => ?_, fun label hdangles => ⟨?_, ?_⟩⟩
  · exact Setting.exists_circular (validateExpr_eq_some_iff.1 h)
  · have hobstructs : w.schema.Obstructs (.ref label) .recursiveTripleReferences := by
      rcases hlabel with hloops | hmisleads
      · exact .loops hloops
      · exact .misleads hmisleads
    obtain ⟨feature, hfeature⟩ := Schema.compileShape_of_not_ok fun compiled hc =>
      (Schema.clear_of_compileShape hc).2 _ _ hshows hobstructs
    refine ⟨feature, ?_⟩
    apply validateExpr_eq_some_iff.2
    exact Setting.returns_of_compileShape_error hfeature
  · intro n expanding slots hnew
    exact Schema.compileTriple_of_dangles hdangles n hnew slots
  · intro closed extra
    have hcompile : w.schema.compileShape (.ofReference closed extra label) =
        if (w.schema.tripleExpression? label).isSome then
          .error (.notImplemented .recursiveTripleReferences)
        else .ok (.value .unsatisfied, []) :=
      Schema.compileTriple_of_dangles hdangles _ List.not_mem_nil []
    apply validateExpr_eq_some_iff.2
    split
    · next hknown =>
      rw [if_pos hknown] at hcompile
      exact Setting.returns_of_compileShape_error hcompile
    · next hunknown =>
      rw [if_neg hunknown] at hcompile
      exact Setting.returns_of_unsatisfiable hcompile

end Session

/-- A schema with a labelled reference to an unknown label, and a node with one arc. -/
def Setting.misdirected : Setting where
  schema := Schema.empty.addTripleExpression (.iri ⟨"T"⟩) (.ref (.iri ⟨"U"⟩))
  graph := .ofList [⟨.iri ⟨"n"⟩, ⟨"p"⟩, .iri ⟨"n"⟩⟩]
  listing := Graph.asInserted _
  limits := .standard

/-- No label reveals itself, and the chain of references ends with an unknown label.  Still a
circular reference is reported, and the reference is not compiled to what is never satisfied. -/
theorem Session.validateExpr_circular_misleading :
    initial.validateExpr .misdirected (.shape (.ofReference false [] (.iri ⟨"T"⟩))) (.iri ⟨"n"⟩) =
      some (.error (.notImplemented .recursiveTripleReferences), initial) ∧
    (∀ label, ¬Setting.misdirected.schema.Loops label) ∧
    Setting.misdirected.schema.Dangles (.iri ⟨"T"⟩) ∧
    Setting.misdirected.schema.compile (some (.ref (.iri ⟨"T"⟩))) ≠
      .ok (.value .unsatisfied, []) := by
  have hlookup : ∀ label te, Setting.misdirected.schema.tripleExpression? label = some te →
      label = .iri ⟨"T"⟩ ∧ te = .ref (.iri ⟨"U"⟩) := by
    intro label te h
    have hentry : (label, te) ∈ [((.iri ⟨"T"⟩ : Label), TripleExpr.ref (.iri ⟨"U"⟩))] :=
      Schema.mem_of_tripleExpression? h
    rw [List.mem_singleton, Prod.mk.injEq] at hentry
    exact hentry
  refine ⟨rfl, fun label hloops => ?_, .link rfl (.unknown rfl), fun h => by cases h⟩
  obtain ⟨te, hopens, hreveals⟩ := Relation.TransGen.head'_iff.1 hloops
  obtain ⟨rfl, rfl⟩ := hlookup _ _ (Schema.opens_ref_iff.1 hopens)
  rcases (Schema.reveals_iff _).1 hreveals with heq | ⟨te', hopens', -⟩
  · simp at heq
  · obtain ⟨heq, -⟩ := hlookup _ _ (Schema.opens_ref_iff.1 hopens')
    simp at heq

end ShEx
