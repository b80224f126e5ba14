import Mathlib.Tactic.Choose
import ShEx.Proofs.Connectives
import ShEx.Proofs.Refusal

/-!
# What an open shape looks at

An open shape whose value expressions are combinations of node constraints looks at the arcs with
the predicates and directions of its triple constraints, and at nothing else of the graph.

The value expressions have answers that depend on the node alone
(`ShapeExpr.Propositional.exists_answer`).  An arc that leaves the node and that no triple
constraint speaks about has one place, beside all slots, which neither the search nor the number of
assignments takes notice of (`decideAssignment_filter`).  An arc that reaches the node and that no
slot admits is left out.  The other arcs are the same in two graphs that agree about them, but for
their order (`Setting.SameArcs.perm_dueArcs`), and the order does not matter where every question
has an answer.
-/

set_option autoImplicit false

namespace ShEx

open ShEx.Rdf

variable {w w' : Setting} {shape : Shape} {node : Term} {holds : ShapeExpr → Term → Bool}
  {slots : List TripleConstraint} {f : Formula} {arc : Arc}

/-! ## Value expressions that look at one node -/

/-- A combination of node constraints whose patterns can be used. -/
inductive ShapeExpr.Propositional (limit : Nat) : ShapeExpr → Prop
  | node {c : NodeConstraint} (h : (ShapeExpr.node c).Plain limit) : Propositional limit (.node c)
  | and {operands : List ShapeExpr} (h : ∀ e ∈ operands, Propositional limit e) :
      Propositional limit (.and operands)
  | or {operands : List ShapeExpr} (h : ∀ e ∈ operands, Propositional limit e) :
      Propositional limit (.or operands)
  | not {operand : ShapeExpr} (h : Propositional limit operand) : Propositional limit (.not operand)

/-- A compound expression returns with what follows from the answers to its questions, if each of
them has one in every session that is right about constraints. -/
theorem Setting.exists_returns_of_answers (hw : WellNumbered w.schema.constraints) {e : ShapeExpr}
    (hc : e.isCompound) (hnum : e.NumberedIn w.schema)
    (hholds : ∀ c m, (w.inquiry e node).Mentions c m → ∀ s : Session, s.Sound w →
      ∃ t, w.Returns c m s (.ok (holds c m)) t) {s : Session} (hs : s.Sound w) :
    ∃ t, w.Returns e node s ((w.inquiry e node).answer holds) t := by
  have hfollows : ∃ t,
      (w.inquiry e node).Follows w.Returns s ((w.inquiry e node).answer holds) t := by
    apply Inquiry.exists_follows_answer (I := fun u => u.Sound w)
    · intro c m u hm hu
      obtain ⟨t, ht⟩ := hholds c m hm u hu
      exact ⟨t, ht, ht.sound hw (hnum.mentions hc hm) hu⟩
    · exact hs
  obtain ⟨t, ht⟩ := hfollows
  exact ⟨t, returns_iff.2 (.compound hc ht)⟩

/-- A combination of node constraints has one answer at a node, whatever the graph and the schema
are and what the session keeps. -/
theorem ShapeExpr.Propositional.exists_answer {e : ShapeExpr}
    (he : e.Propositional w.limits.maxRegexLength) (m : Term) :
    ∃ b, ∀ w' : Setting, w'.limits = w.limits → WellNumbered w'.schema.constraints →
      e.NumberedIn w'.schema → ∀ s : Session, s.Sound w' → ∃ t, w'.Returns e m s (.ok b) t := by
  induction he with
  | @node c h =>
    obtain ⟨b, hb⟩ := Setting.exists_constraintAnswer h m
    refine ⟨b, fun w' hlimits hw hnum s hs => ?_⟩
    obtain ⟨r, t, hr⟩ := Setting.exists_evaluateConstraint (w := w') c m s
    obtain ⟨hanswer, -⟩ :=
      Setting.evaluateConstraint_sound hw (hnum c (List.mem_singleton.2 rfl)) hs hr
    have hsame : w'.constraintAnswer c m = w.constraintAnswer c m := by
      unfold Setting.constraintAnswer
      rw [hlimits]
    rw [hanswer, hsame, hb] at hr
    exact ⟨t, Setting.returns_iff.2 (.constraint hr)⟩
  | @and operands _ ih =>
    -- The answers of the operands decide, and they are the same in every setting.
    choose! value hvalue using ih
    refine ⟨operands.all value, fun w' hlimits hw hnum s hs => ?_⟩
    have hanswer : (w'.inquiry (.and operands) m).answer (fun e _ => value e) =
        .ok (operands.all value) := Inquiry.answer_allInquiry m operands
    rw [← hanswer]
    refine Setting.exists_returns_of_answers hw rfl hnum (fun c m' hm u hu => ?_) hs
    obtain ⟨hmem, rfl⟩ := mentions_allInquiry hm
    exact hvalue c hmem w' hlimits hw (hnum.mentions rfl hm) u hu
  | @or operands _ ih =>
    choose! value hvalue using ih
    refine ⟨operands.any value, fun w' hlimits hw hnum s hs => ?_⟩
    have hanswer : (w'.inquiry (.or operands) m).answer (fun e _ => value e) =
        .ok (operands.any value) := Inquiry.answer_anyInquiry m operands
    rw [← hanswer]
    refine Setting.exists_returns_of_answers hw rfl hnum (fun c m' hm u hu => ?_) hs
    obtain ⟨hmem, rfl⟩ := mentions_anyInquiry hm
    exact hvalue c hmem w' hlimits hw (hnum.mentions rfl hm) u hu
  | @not operand _ ih =>
    obtain ⟨b, hb⟩ := ih
    refine ⟨!b, fun w' hlimits hw hnum s hs => ?_⟩
    obtain ⟨t, ht⟩ := hb w' hlimits hw hnum s hs
    exact ⟨t, ht.negation⟩

/-! ## The arcs around a node -/

/-- The arcs that leave a node are the triples with the node as their subject, in whatever order
they are listed. -/
theorem mem_outgoingArcs {g : Graph} {listing : g.Listing} :
    arc ∈ outgoingArcs listing node ↔ arc.inverse = false ∧ ∃ subject : Resource,
      subject.toTerm = node ∧ ⟨subject, arc.predicate, arc.neighbour⟩ ∈ g.triples := by
  have hresource : ∀ r : Resource, r.toTerm = node ↔ node.resource? = some r := by
    intro r
    cases r <;> cases node <;> simp [Resource.toTerm, Term.resource?, eq_comm]
  obtain ⟨inverse, predicate, neighbour⟩ := arc
  unfold outgoingArcs
  cases hr : node.resource? with
  | none => simp [hresource, hr]
  | some r =>
    simp only [List.mem_map, (listing.outgoing_perm r).mem_iff, Graph.withSubject, List.mem_filter,
      decide_eq_true_eq, Arc.mk.injEq, hresource, hr, Option.some.injEq]
    constructor
    · rintro ⟨⟨s, p, o⟩, ⟨hmem, rfl⟩, rfl, rfl, rfl⟩
      exact ⟨rfl, _, rfl, hmem⟩
    · rintro ⟨rfl, _, rfl, hmem⟩
      exact ⟨_, ⟨hmem, rfl⟩, rfl, rfl, rfl⟩

/-- The arcs that reach a node are the triples with the node as their object, in whatever order they
are listed. -/
theorem mem_incomingArcs {g : Graph} {listing : g.Listing} :
    arc ∈ incomingArcs listing node ↔ arc.inverse = true ∧ ∃ subject : Resource,
      subject.toTerm = arc.neighbour ∧ ⟨subject, arc.predicate, node⟩ ∈ g.triples := by
  obtain ⟨inverse, predicate, neighbour⟩ := arc
  unfold incomingArcs
  simp only [List.mem_map, (listing.incoming_perm node).mem_iff, Graph.withObject, List.mem_filter,
    decide_eq_true_eq, Arc.mk.injEq]
  constructor
  · rintro ⟨⟨s, p, o⟩, ⟨hmem, rfl⟩, rfl, rfl, rfl⟩
    exact ⟨rfl, s, rfl, hmem⟩
  · rintro ⟨rfl, s, rfl, hmem⟩
    exact ⟨_, ⟨hmem, rfl⟩, rfl, rfl, rfl⟩

/-- Two graphs have the same triples with the predicates and directions of the triple constraints
that a shape reveals. -/
structure Setting.SameArcs (w w' : Setting) (shape : Shape) (node : Term) : Prop where
  outgoing : ∀ t, w.schema.Shows shape (.triple t) → t.inverse = false →
    ∀ (subject : Resource) (object : Term), subject.toTerm = node →
      (⟨subject, t.predicate, object⟩ ∈ w.graph.triples ↔
        ⟨subject, t.predicate, object⟩ ∈ w'.graph.triples)
  incoming : ∀ t, w.schema.Shows shape (.triple t) → t.inverse = true → ∀ subject : Resource,
    (⟨subject, t.predicate, node⟩ ∈ w.graph.triples ↔
      ⟨subject, t.predicate, node⟩ ∈ w'.graph.triples)

namespace Setting

variable (hslots : ∀ t, t ∈ slots ↔ w.schema.Shows shape (.triple t))
include hslots

/-- With a predicate that the slots mention, the same arcs leave the node in both graphs. -/
theorem SameArcs.mem_outgoingArcs_iff (h : w.SameArcs w' shape node)
    (hmentioned : arc.predicate ∈ mentioned slots) :
    arc ∈ outgoingArcs w.listing node ↔ arc ∈ outgoingArcs w'.listing node := by
  obtain ⟨t, ht, hpredicate⟩ := List.mem_map.1 hmentioned
  obtain ⟨hmem, hout⟩ := List.mem_filter.1 ht
  rw [mem_outgoingArcs, mem_outgoingArcs, ← hpredicate]
  refine and_congr_right fun _ => exists_congr fun subject => and_congr_right fun hsubject => ?_
  exact h.outgoing t ((hslots t).1 hmem) (by simpa using hout) subject _ hsubject

/-- Of the arcs that some slot admits, the same ones reach the node in both graphs. -/
theorem SameArcs.mem_incomingArcs_iff (h : w.SameArcs w' shape node)
    (hadmitted : slots.any (·.admits holds arc) = true) :
    arc ∈ incomingArcs w.listing node ↔ arc ∈ incomingArcs w'.listing node := by
  obtain ⟨t, hmem, hadmits⟩ := List.any_eq_true.1 hadmitted
  unfold TripleConstraint.admits TripleConstraint.concerns at hadmits
  simp only [Bool.and_eq_true, decide_eq_true_eq] at hadmits
  obtain ⟨⟨hinverse, hpredicate⟩, -⟩ := hadmits
  rw [mem_incomingArcs, mem_incomingArcs, ← hinverse, ← hpredicate]
  refine and_congr_right fun hin => exists_congr fun subject => and_congr_right fun _ => ?_
  exact h.incoming t ((hslots t).1 hmem) hin subject

end Setting

/-! ## Arcs beside all slots -/

/-- In an open shape, an outgoing arc with a predicate that no slot speaks about stands beside all
slots. -/
theorem Shape.places_of_not_mentioned (hopen : shape.closed = false) (hout : arc.inverse = false)
    (hnot : arc.predicate ∉ mentioned slots) : shape.places holds slots arc = [.extra] := by
  have hadmitting : admitting holds arc 0 slots = [] := by
    rw [List.eq_nil_iff_forall_not_mem]
    intro c hc
    obtain ⟨i, t, hi, hadmits, -⟩ := mem_admitting.1 hc
    unfold TripleConstraint.admits TripleConstraint.concerns at hadmits
    simp only [Bool.and_eq_true, decide_eq_true_eq] at hadmits
    obtain ⟨⟨hinverse, hpredicate⟩, -⟩ := hadmits
    refine hnot (List.mem_map.2 ⟨t, List.mem_filter.2 ⟨List.mem_of_getElem? hi, ?_⟩, hpredicate⟩)
    rw [hinverse, hout]
    rfl
  have hextra : shape.allowsExtra slots arc.predicate = true := by
    simp [Shape.allowsExtra, hopen, hnot]
  unfold Shape.places
  rw [hadmitting, hout, hextra]
  rfl

/-- Arcs that stand beside all slots do not matter for the search or for the number of
assignments. -/
theorem decideAssignment_filter (limit : Nat) (f : Formula) (slots : List TripleConstraint)
    (items : List (List Choice)) :
    decideAssignment limit f slots (items.filter fun options => options != [.extra]) =
      decideAssignment limit f slots items := by
  have hopen : openChoices (items.filter fun options => options != [.extra]) =
      openChoices items := by
    unfold openChoices
    rw [List.filter_filter]
    refine List.filter_congr fun options _ => ?_
    by_cases hextra : options = [.extra]
    · simp [hextra]
    · simp [hextra]
  have hforced : forcedCounts slots.length (items.filter fun options => options != [.extra]) =
      forcedCounts slots.length items := by
    unfold forcedCounts
    rw [List.foldl_filter]
    congr 1
    funext counts options
    by_cases hextra : options = [.extra]
    · simp [hextra, addArc]
    · simp [hextra]
  unfold decideAssignment
  rw [hopen, hforced]

/-! ## The same answer over two graphs -/

namespace Setting

variable (hslots : ∀ t, t ∈ slots ↔ w.schema.Shows shape (.triple t)) (hopen : shape.closed = false)
include hslots hopen

/-- The arcs that leave the node are the same, but for those that stand beside all slots. -/
theorem SameArcs.mem_outgoingArcs_iff_of_places (h : w.SameArcs w' shape node)
    (hplaces : shape.places holds slots arc ≠ [.extra]) :
    arc ∈ outgoingArcs w.listing node ↔ arc ∈ outgoingArcs w'.listing node := by
  cases hinverse : arc.inverse with
  | true => simp [mem_outgoingArcs, hinverse]
  | false =>
    refine h.mem_outgoingArcs_iff hslots ?_
    by_contra hnot
    exact hplaces (Shape.places_of_not_mentioned hopen hinverse hnot)

/-- An arc that leaves the node and has no place is found in both graphs or in neither. -/
theorem SameArcs.any_stuck_eq (holds : ShapeExpr → Term → Bool) (h : w.SameArcs w' shape node) :
    (outgoingArcs w.listing node).any (fun arc => (shape.places holds slots arc).isEmpty) =
      (outgoingArcs w'.listing node).any fun arc => (shape.places holds slots arc).isEmpty := by
  rw [Bool.eq_iff_iff, List.any_eq_true, List.any_eq_true]
  refine exists_congr fun arc => and_congr_left fun hempty => ?_
  have hplaces : shape.places holds slots arc ≠ [.extra] := by
    rw [List.isEmpty_iff.1 hempty]
    exact (List.cons_ne_nil _ _).symm
  exact h.mem_outgoingArcs_iff_of_places hslots hopen hplaces

/-- The same arcs are placed, but for those that stand beside all slots. -/
theorem SameArcs.perm_dueArcs (holds : ShapeExpr → Term → Bool) (h : w.SameArcs w' shape node) :
    ((w.dueArcs holds slots node).filter fun arc =>
        shape.places holds slots arc != [.extra]).Perm
      ((w'.dueArcs holds slots node).filter fun arc =>
        shape.places holds slots arc != [.extra]) := by
  refine (List.perm_ext_iff_of_nodup (nodup_dueArcs.filter _) (nodup_dueArcs.filter _)).2 ?_
  intro arc
  simp only [List.mem_filter, bne_iff_ne]
  refine and_congr_left fun hplaces => ?_
  unfold dueArcs
  rw [List.mem_append, List.mem_append, List.mem_filter, List.mem_filter]
  refine or_congr (h.mem_outgoingArcs_iff_of_places hslots hopen hplaces)
    (and_congr_left fun hadmitted => ?_)
  exact h.mem_incomingArcs_iff hslots hadmitted

/-- Over two graphs with the same arcs of the predicates and directions that it speaks about, an
open shape draws the same conclusion from the answers to its value expressions. -/
theorem SameArcs.answer_eq (holds : ShapeExpr → Term → Bool) (h : w.SameArcs w' shape node)
    (hlimits : w.limits = w'.limits) (hcompile : w.schema.compileShape shape = .ok (f, slots))
    (hcompile' : w'.schema.compileShape shape = .ok (f, slots)) :
    (w.shapeInquiry shape node).answer holds = (w'.shapeInquiry shape node).answer holds := by
  have hdecide : ∀ v : Setting, decideAssignment w.limits.maxSearchSpace f slots
      ((v.dueArcs holds slots node).map (shape.places holds slots)) =
        decideAssignment w.limits.maxSearchSpace f slots
          (((v.dueArcs holds slots node).filter fun arc =>
            shape.places holds slots arc != [.extra]).map (shape.places holds slots)) := by
    intro v
    rw [← decideAssignment_filter, List.filter_map]
    rfl
  have hperm := (h.perm_dueArcs hslots hopen holds).map (shape.places holds slots)
  rw [answer_shapeInquiry_of_compile holds hcompile, answer_shapeInquiry_of_compile holds hcompile',
    h.any_stuck_eq hslots hopen holds, ← hlimits]
  split
  · rfl
  · exact ((hdecide w).trans (decideAssignment_perm hperm)).trans (hdecide w').symm

end Setting

/-! ## Open shapes -/

/-- An open shape asks for nothing that is not supported, its references are known and none reveals
itself, and its value expressions are combinations of node constraints. -/
structure Schema.Local (s : Schema) (limit : Nat) (shape : Shape) : Prop where
  opened : shape.closed = false
  supported : ¬s.Unsupported shape
  known : ∀ label, s.Shows shape (.ref label) → s.tripleExpression? label ≠ none
  acyclic : ∀ label, s.Shows shape (.ref label) → ¬s.Loops label
  values : ∀ t v, s.Shows shape (.triple t) → t.value = some v → v.Propositional limit

/-- A shape of this kind is compiled, and its slots are the triple constraints that it reveals. -/
theorem Schema.Local.exists_compileShape {s : Schema} {limit : Nat} (h : s.Local limit shape) :
    ∃ f slots, s.compileShape shape = .ok (f, slots) ∧
      ∀ t, t ∈ slots ↔ s.Shows shape (.triple t) := by
  cases hc : s.compileShape shape with
  | ok compiled =>
    obtain ⟨f, slots⟩ := compiled
    have hexpands := expandsTo_of_compile (compile_of_compileShape hc)
    exact ⟨f, slots, rfl, hexpands.mem_slots⟩
  | error failure =>
    exfalso
    rcases compileShape_error_cases hc with ⟨hunsupported, -⟩ | ⟨label, hshows, hloops | hmisleads⟩
    · exact h.supported hunsupported
    · exact h.acyclic label hshows hloops
    · obtain ⟨te, hte, hreveals⟩ := hshows
      obtain ⟨l, hl, hnone⟩ := hmisleads.dangles.exists_unknown
      exact h.known l ⟨te, hte, hreveals.trans hl⟩ hnone

namespace Session

/-- An open shape without unsupported parts is given whose references are known and not circular and
whose value expressions are combinations of node constraints.  Over two graphs, in any order of
arcs, that have the same triples with the predicates and directions of its triple constraints at a
node, it has the same result at the node in all sessions that calls come to: the same answer, or the
same refusal of a search. -/
theorem validateExpr_local (hschema : w.schema = w'.schema) (hlimits : w.limits = w'.limits)
    (hbuilt : w.schema.Built) (hnum : (ShapeExpr.shape shape).NumberedIn w.schema)
    (hlocal : w.schema.Local w.limits.maxRegexLength shape) (hsame : w.SameArcs w' shape node)
    {s s' : Session} (hs : s.Attained w w.Proper) (hs' : s'.Attained w' w'.Proper) :
    ∃ r t t', s.validateExpr w (.shape shape) node = some (r, t) ∧
      s'.validateExpr w' (.shape shape) node = some (r, t') ∧
      ∀ failure, r = .error failure → ∃ complexity,
        failure = .searchSpaceExceeded complexity w.limits.maxSearchSpace := by
  have hw := hbuilt.wellNumbered
  have hw' : WellNumbered w'.schema.constraints := hschema ▸ hw
  have hnum' : (ShapeExpr.shape shape).NumberedIn w'.schema := hschema ▸ hnum
  obtain ⟨f, slots, hcompile, hslots⟩ := hlocal.exists_compileShape
  have hcompile' : w'.schema.compileShape shape = .ok (f, slots) := hschema ▸ hcompile
  have hanswers : ∀ v m, v.Propositional w.limits.maxRegexLength → ∃ b, ∀ w₁ : Setting,
      w₁.limits = w.limits → WellNumbered w₁.schema.constraints → v.NumberedIn w₁.schema →
        ∀ u : Session, u.Sound w₁ → ∃ t, w₁.Returns v m u (.ok b) t :=
    fun v m hv => hv.exists_answer m
  choose! holds hholds using hanswers
  -- In both settings the questions of the shape are its value expressions at the ends of arcs.
  have hreturns : ∀ w₁ : Setting, w₁.schema = w.schema → w₁.limits = w.limits → ∀ u : Session,
      u.Sound w₁ → ∃ t, w₁.Returns (.shape shape) node u
        ((w₁.shapeInquiry shape node).answer holds) t := by
    intro w₁ hschema₁ hlimits₁ u hu
    have hw₁ : WellNumbered w₁.schema.constraints := hschema₁ ▸ hw
    have hnum₁ : (ShapeExpr.shape shape).NumberedIn w₁.schema := hschema₁ ▸ hnum
    refine Setting.exists_returns_of_answers hw₁ rfl hnum₁ (fun v m hm u' hu' => ?_) hu
    have hnumv := hnum₁.mentions rfl hm
    obtain ⟨f₁, slots₁, hcompile₁, arc, -, t, ht, -, hvalue, -⟩ := Setting.mentions_shapeInquiry hm
    rw [hschema₁, Schema.compile_of_compileShape hcompile] at hcompile₁
    cases hcompile₁
    have hprop := hlocal.values t v ((hslots t).1 ht) hvalue
    exact hholds v m hprop w₁ hlimits₁ hw₁ hnumv u' hu'
  obtain ⟨t, ht⟩ := hreturns w rfl rfl s (Setting.reliable_of_attained hw hs).sound
  obtain ⟨t', ht'⟩ := hreturns w' hschema.symm hlimits.symm s'
    (Setting.reliable_of_attained hw' hs').sound
  have hanswer := hsame.answer_eq hslots hlocal.opened holds hlimits hcompile hcompile'
  rw [← hanswer] at ht'
  refine ⟨_, t, t', validateExpr_eq_some_iff.2 ht, validateExpr_eq_some_iff.2 ht', ?_⟩
  intro failure hfailure
  rw [Setting.answer_shapeInquiry_of_compile holds hcompile] at hfailure
  split at hfailure
  · cases hfailure
  · obtain ⟨complexity, -, heq⟩ := decideAssignment_error hfailure
    exact ⟨complexity, heq⟩

end Session

/-! ## A node with arcs of all kinds -/

/-- What is not named by one letter `y` in front. -/
def ShapeExpr.notStartingWithY : ShapeExpr :=
  .not (.node ⟨none, none, [.pattern ⟨"^y", none⟩], [], [], none⟩)

/-- A shape that speaks about arcs `p` to some nodes, about one arc `q` that leaves the node and,
over a reference, about those that reach it.  Further arcs `q` are allowed beside them. -/
def Shape.mixed : Shape :=
  ⟨false, [⟨"q"⟩], some (.eachOf ⟨[
    .triple ⟨⟨"p"⟩, false, some .notStartingWithY, .zeroOrMore, []⟩,
    .ref (.iri ⟨"T"⟩), .triple ⟨⟨"q"⟩, false, none, .one, []⟩], none, []⟩), [], [], []⟩

/-- The schema with the triple expression that the shape refers to. -/
def Schema.mixed : Schema :=
  Schema.empty.addTripleExpression (.iri ⟨"T"⟩) (.triple ⟨⟨"q"⟩, true, none, .zeroOrMore, []⟩)

/-- A node with an arc to itself, beside arcs that the shape does not speak about. -/
def Setting.mixed : Setting where
  schema := .mixed
  graph := .ofList [⟨.iri ⟨"n"⟩, ⟨"p"⟩, .iri ⟨"x"⟩⟩, ⟨.iri ⟨"n"⟩, ⟨"q"⟩, .iri ⟨"n"⟩⟩,
    ⟨.iri ⟨"n"⟩, ⟨"r"⟩, .iri ⟨"z"⟩⟩, ⟨.iri ⟨"k"⟩, ⟨"p"⟩, .iri ⟨"n"⟩⟩]
  listing := Graph.asInserted _
  limits := .standard

/-- The node with other arcs beside those that the shape speaks about, in another order. -/
def Setting.mixedOtherwise : Setting where
  schema := .mixed
  graph := .ofList [⟨.iri ⟨"n"⟩, ⟨"s"⟩, .iri ⟨"y"⟩⟩, ⟨.iri ⟨"n"⟩, ⟨"p"⟩, .iri ⟨"x"⟩⟩,
    ⟨.iri ⟨"n"⟩, ⟨"q"⟩, .iri ⟨"n"⟩⟩, ⟨.iri ⟨"x"⟩, ⟨"q"⟩, .iri ⟨"y"⟩⟩]
  listing := Graph.backwards _
  limits := .standard

/-- What the shape reveals. -/
theorem Schema.shows_mixed {e : TripleExpr} (h : Schema.mixed.Shows .mixed e) :
    (∃ g, e = .eachOf g) ∨ e = .ref (.iri ⟨"T"⟩) ∨
      ∃ t, e = .triple t ∧ t ∈ [⟨⟨"p"⟩, false, some .notStartingWithY, .zeroOrMore, []⟩,
        ⟨⟨"q"⟩, true, none, .zeroOrMore, []⟩, ⟨⟨"q"⟩, false, none, .one, []⟩] := by
  obtain ⟨te, hte, hreveals⟩ := h
  cases hte
  have hlookup : Schema.mixed.tripleExpression? (.iri ⟨"T"⟩) =
      some (.triple ⟨⟨"q"⟩, true, none, .zeroOrMore, []⟩) := rfl
  have htriple : ∀ {t : TripleConstraint} {e : TripleExpr}, Schema.mixed.Reveals (.triple t) e →
      e = .triple t := by
    intro t e h
    rcases (reveals_iff _).1 h with heq | ⟨e', hopens, -⟩
    · exact heq.symm
    · exact (not_opens_triple hopens).elim
  rcases (reveals_iff _).1 hreveals with rfl | ⟨e₁, hopens, hreveals⟩
  · exact .inl ⟨_, rfl⟩
  simp only [opens_eachOf_iff, List.mem_cons, List.not_mem_nil, or_false] at hopens
  rcases hopens with rfl | rfl | rfl
  · exact .inr (.inr ⟨_, htriple hreveals, by simp⟩)
  · rcases (reveals_iff _).1 hreveals with rfl | ⟨e₂, hopens, hreveals⟩
    · exact .inr (.inl rfl)
    · rw [opens_ref_iff, hlookup] at hopens
      cases hopens
      exact .inr (.inr ⟨_, htriple hreveals, by simp⟩)
  · exact .inr (.inr ⟨_, htriple hreveals, by simp⟩)

/-- The shape reveals three triple constraints, one of them by its reference. -/
theorem Schema.triple_of_shows_mixed {t : TripleConstraint}
    (h : Schema.mixed.Shows .mixed (.triple t)) :
    t ∈ [⟨⟨"p"⟩, false, some .notStartingWithY, .zeroOrMore, []⟩,
      ⟨⟨"q"⟩, true, none, .zeroOrMore, []⟩, ⟨⟨"q"⟩, false, none, .one, []⟩] := by
  rcases shows_mixed h with ⟨g, heq⟩ | heq | ⟨t', heq, hmem⟩
  · cases heq
  · cases heq
  · cases heq
    exact hmem

/-- The shape is of the kind whose answer depends on the arcs that it speaks about only. -/
theorem Schema.local_mixed : Schema.mixed.Local Limits.standard.maxRegexLength .mixed := by
  have hcompile : ∃ compiled, Schema.mixed.compileShape .mixed = .ok compiled := ⟨_, rfl⟩
  obtain ⟨compiled, hc⟩ := hcompile
  obtain ⟨-, hclear⟩ := clear_of_compileShape hc
  refine ⟨rfl, fun h => ?_, fun label h => ?_, fun label h hloops => ?_, fun t v h hv => ?_⟩
  · obtain ⟨feature, hrefused⟩ := h.compileShape
    cases hc.symm.trans hrefused
  · rcases shows_mixed h with ⟨g, heq⟩ | heq | ⟨t', heq, -⟩
    · cases heq
    · cases heq
      exact Option.some_ne_none _
    · cases heq
  · exact hclear _ _ h (.loops hloops)
  · have hmem := triple_of_shows_mixed h
    simp only [List.mem_cons, List.not_mem_nil, or_false] at hmem
    rcases hmem with rfl | rfl | rfl
    · cases hv
      refine .not (.node ?_)
      intro facet hfacet
      rw [List.mem_singleton] at hfacet
      cases hfacet
      exact ⟨_, rfl⟩
    · cases hv
    · cases hv

namespace Session

/-- The two settings share an arc that the shape places, one that goes from the node to itself, and
no other one. -/
theorem validateExpr_local_mixed : ∃ r t t',
    initial.validateExpr .mixed (.shape .mixed) (.iri ⟨"n"⟩) = some (r, t) ∧
    initial.validateExpr .mixedOtherwise (.shape .mixed) (.iri ⟨"n"⟩) = some (r, t') ∧
    ∀ failure, r = .error failure → ∃ complexity, failure =
      .searchSpaceExceeded complexity Setting.mixed.limits.maxSearchSpace := by
  have hbuilt : Schema.mixed.Built :=
    Schema.Built.empty.addTripleExpression (.iri ⟨"T"⟩)
      (.triple ⟨⟨"q"⟩, true, none, .zeroOrMore, []⟩)
  have hnum : (ShapeExpr.shape .mixed).NumberedIn Schema.mixed := by
    intro c hc
    have hconstraints : (ShapeExpr.shape .mixed).constraints =
        [⟨none, none, [.pattern ⟨"^y", none⟩], [], [], none⟩] := rfl
    rw [hconstraints, List.mem_singleton] at hc
    rw [hc]
    exact .inl rfl
  have htriples : Setting.mixed.graph.triples = [⟨.iri ⟨"n"⟩, ⟨"p"⟩, .iri ⟨"x"⟩⟩,
      ⟨.iri ⟨"n"⟩, ⟨"q"⟩, .iri ⟨"n"⟩⟩, ⟨.iri ⟨"n"⟩, ⟨"r"⟩, .iri ⟨"z"⟩⟩,
      ⟨.iri ⟨"k"⟩, ⟨"p"⟩, .iri ⟨"n"⟩⟩] := rfl
  have htriples' : Setting.mixedOtherwise.graph.triples = [⟨.iri ⟨"n"⟩, ⟨"s"⟩, .iri ⟨"y"⟩⟩,
      ⟨.iri ⟨"n"⟩, ⟨"p"⟩, .iri ⟨"x"⟩⟩, ⟨.iri ⟨"n"⟩, ⟨"q"⟩, .iri ⟨"n"⟩⟩,
      ⟨.iri ⟨"x"⟩, ⟨"q"⟩, .iri ⟨"y"⟩⟩] := rfl
  have hsame : Setting.mixed.SameArcs .mixedOtherwise .mixed (.iri ⟨"n"⟩) := by
    refine ⟨fun t h hout subject object hsubject => ?_, fun t h hin subject => ?_⟩
    · obtain rfl : subject = .iri ⟨"n"⟩ := by
        cases subject <;> simp_all [Resource.toTerm]
      have hmem := Schema.triple_of_shows_mixed h
      simp only [List.mem_cons, List.not_mem_nil, or_false] at hmem
      rw [htriples, htriples']
      rcases hmem with rfl | rfl | rfl
      · simp
      · cases hout
      · simp
    · have hmem := Schema.triple_of_shows_mixed h
      simp only [List.mem_cons, List.not_mem_nil, or_false] at hmem
      rw [htriples, htriples']
      rcases hmem with rfl | rfl | rfl
      · cases hin
      · simp
      · cases hin
  exact @validateExpr_local .mixed .mixedOtherwise .mixed (.iri ⟨"n"⟩) rfl rfl hbuilt hnum
    Schema.local_mixed hsame _ _ .initial .initial

end Session

end ShEx
