import ShEx.Proofs.CacheTransparency
import ShEx.Proofs.Filling

/-!
# Answers without what is not supported

An external shape and an abstract declaration have no answer, and their failure ends the whole
evaluation.  So an answer never rests on one: whatever stands in their place, the inquiry asks the
same questions up to there (`Setting.filled_inquiry`), and a session that comes to an answer comes
to the same one with everything filled in (`Setting.Returns.filled`).

The numbers of node constraints differ between the two schemas, so the answers that the sessions
keep for constraints are not compared; both are right (`Session.Sound`).
-/

set_option autoImplicit false

namespace ShEx

open ShEx.Rdf

variable {α β : Type}

/-! ## Inquiries -/

namespace Inquiry

/-- An inquiry asks what another one asks, filled in, and concludes the same, as far as the other
one does not fail. -/
inductive Filled : Inquiry α → Inquiry α → Prop
  | done (a : α) : Filled (.done a) (.done a)
  | failed (failure : Failure) (q : Inquiry α) : Filled (.failed failure) q
  | ask {e e' : ShapeExpr} (node : Term) {next next' : Bool → Inquiry α} (he : e.Filled e')
      (hnext : ∀ b, Filled (next b) (next' b)) : Filled (.ask e node next) (.ask e' node next')

/-- Two inquiries one after the other are filled in if both are. -/
theorem Filled.bind {q q' : Inquiry α} (h : q.Filled q') {f f' : α → Inquiry β}
    (hf : ∀ a, (f a).Filled (f' a)) : (q >>= f).Filled (q' >>= f') := by
  induction h with
  | done a => exact hf a
  | failed failure => exact .failed failure _
  | ask node he _ ih => exact .ask node he ih

/-- A question is filled in together with the expression that it is about. -/
theorem filled_question {e e' : ShapeExpr} (h : e.Filled e') (node : Term) :
    (question e node).Filled (question e' node) := .ask node h .done

/-- An inquiry without questions has nothing to fill in. -/
theorem filled_ofExcept (x : Except Failure α) : (ofExcept x).Filled (ofExcept x) := by
  cases x with
  | ok a => exact .done a
  | error failure => exact .failed failure _

/-- What the questions of an inquiry can do from related states, they can do filled in, so the
inquiry can conclude the same. -/
theorem Filled.simulate {R R' : Answering} {I : Session → Session → Prop} {q q' : Inquiry α}
    (hq : q.Filled q')
    (hR : ∀ e e' node, q.Mentions e node → q'.Mentions e' node → e.Filled e' →
      ∀ s s' t b, I s s' → R e node s (.ok b) t → ∃ t', R' e' node s' (.ok b) t' ∧ I t t')
    {s s' t : Session} {a : α} (hs : I s s') (h : q.Follows R s (.ok a) t) :
    ∃ t', q'.Follows R' s' (.ok a) t' ∧ I t t' := by
  induction hq generalizing s s' with
  | done a' =>
    obtain ⟨ha, rfl⟩ := h
    exact ⟨s', ⟨ha, rfl⟩, hs⟩
  | failed failure => cases h.1
  | ask node he hnext ih =>
    rcases h with ⟨b, u, hb, hrest⟩ | ⟨failure, -, hf⟩
    · obtain ⟨u', hb', hu⟩ := hR _ _ node (.inl ⟨rfl, rfl⟩) (.inl ⟨rfl, rfl⟩) he _ _ _ _ hs hb
      obtain ⟨t', hrest', ht⟩ := ih b
        (fun e e' m hm hm' => hR e e' m (.inr ⟨b, hm⟩) (.inr ⟨b, hm'⟩)) hu hrest
      exact ⟨t', .inl ⟨b, u', hb', hrest'⟩, ht⟩
    · cases hf

end Inquiry

/-- A disjunction asks for its operands one by one, so it is filled in if they are. -/
theorem filled_anyInquiry {es es' : List ShapeExpr} (h : List.Forall₂ ShapeExpr.Filled es es')
    (node : Term) : (anyInquiry node es).Filled (anyInquiry node es') := by
  induction h with
  | nil => exact .done false
  | cons he _ ih =>
    refine (Inquiry.filled_question he node).bind fun b => ?_
    cases b with
    | true => exact .done true
    | false => exact ih

/-- A conjunction asks for its operands one by one, so it is filled in if they are. -/
theorem filled_allInquiry {es es' : List ShapeExpr} (h : List.Forall₂ ShapeExpr.Filled es es')
    (node : Term) : (allInquiry node es).Filled (allInquiry node es') := by
  induction h with
  | nil => exact .done true
  | cons he _ ih =>
    refine (Inquiry.filled_question he node).bind fun b => ?_
    cases b with
    | true => exact ih
    | false => exact .done false

/-- The question about the other end of an arc is filled in with the value expression. -/
theorem filled_valueInquiry {t t' : TripleConstraint}
    (h : (TripleExpr.triple t).Filled (.triple t')) (arc : Arc) :
    (valueInquiry t arc).Filled (valueInquiry t' arc) := by
  cases h with
  | triple hvalue =>
    obtain ⟨predicate, inverse, value, cardinality, acts⟩ := t
    cases hvalue with
    | none => exact .done true
    | some hvalue => exact Inquiry.filled_question hvalue arc.neighbour

section Slots

variable {slots slots' : List TripleConstraint}

/-- The slots that speak about an arc are asked about in the same order, and have the same
predicates and directions. -/
theorem filled_slotInquiry (h : FilledSlots slots slots') (arc : Arc) (i : Nat) :
    (slotInquiry arc i slots).Filled (slotInquiry arc i slots') := by
  induction h generalizing i with
  | nil => exact .done []
  | @cons t t' _ _ ht _ ih =>
    unfold slotInquiry
    rw [concerns_alike ht.alike]
    split
    · refine (filled_valueInquiry ht arc).bind fun admitted => (ih (i + 1)).bind fun others => ?_
      exact .done _
    · exact ih (i + 1)

/-- The arcs are asked about one after the other, and end in the same places, since a shape that is
filled in allows the same further arcs. -/
theorem filled_arcInquiry (h : FilledSlots slots slots') (shape : Shape)
    (expression : Option TripleExpr) (arcs : List Arc) : (arcInquiry shape slots arcs).Filled
      (arcInquiry { shape with expression := expression } slots' arcs) := by
  induction arcs with
  | nil => exact .done (some [])
  | cons arc rest ih =>
    unfold arcInquiry
    refine (filled_slotInquiry h arc 0).bind fun eligible => ?_
    rw [allowsExtra_alike h.alike]
    split
    · exact ih.bind fun items => .done _
    · generalize (if shape.allowsExtra slots arc.predicate then eligible ++ [.extra]
        else eligible) = options
      dsimp only
      split
      · exact .done none
      · exact ih.bind fun items => .done _

end Slots

/-- A shape that is filled in has the same formula. -/
theorem Schema.Filled.compileShape {s s' : Schema} (h : s.Filled s') {shape : Shape}
    {expression : Option TripleExpr}
    (he : Option.Rel TripleExpr.Filled shape.expression expression) :
    SameUpTo FilledSlot (s.compileShape shape)
      (s'.compileShape { shape with expression := expression }) := by
  unfold Schema.compileShape
  split
  · exact .error _
  split
  · exact .error _
  split
  · exact .error _
  exact h.compile he

/-- What is made of others is so when it is filled in, unless it is external itself. -/
theorem ShapeExpr.Filled.isCompound {e e' : ShapeExpr} (h : e.Filled e')
    (hc : e.isCompound) : e = .external ∨ e'.isCompound := by
  cases h with
  | external => exact .inl rfl
  | or | and | not | shape => exact .inr rfl
  | node => cases hc
  | ref => cases hc

/-- The setting with another schema. -/
def Setting.withSchema (w : Setting) (s : Schema) : Setting := { w with schema := s }

namespace Setting

variable {w : Setting} {schema : Schema}

/-- A shape is filled in with its triple expression: both are compiled alike, and the arcs of both
are shared out by the same formula. -/
theorem filled_shapeInquiry (h : w.schema.Filled schema) {shape : Shape}
    {expression : Option TripleExpr}
    (he : Option.Rel TripleExpr.Filled shape.expression expression) (node : Term) :
    (w.shapeInquiry shape node).Filled
      ((w.withSchema schema).shapeInquiry { shape with expression := expression } node) := by
  rw [shapeInquiry_eq, shapeInquiry_eq]
  have hc := h.compileShape he
  show Inquiry.Filled _ (Inquiry.ofExcept (schema.compileShape _) >>= _)
  generalize w.schema.compileShape shape = compiled, schema.compileShape _ = compiled' at hc
  cases hc with
  | error failure => exact .failed failure _
  | @ok f slots slots' hslots =>
    have hslots : FilledSlots slots slots' := hslots
    have harcs : (w.withSchema schema).arcsOf slots' node = w.arcsOf slots node := by
      unfold arcsOf
      rw [any_inverse_alike hslots.alike]
      rfl
    show Inquiry.Filled (arcInquiry shape slots (w.arcsOf slots node) >>= _)
      (arcInquiry _ slots' ((w.withSchema schema).arcsOf slots' node) >>= _)
    rw [harcs]
    refine (filled_arcInquiry hslots shape expression _).bind fun options => ?_
    cases options with
    | none => exact .done false
    | some items =>
      dsimp only [concludeArcs]
      rw [decideAssignment_alike hslots.alike]
      exact Inquiry.filled_ofExcept _

/-- A compound expression that is filled in asks for what it asks for without, filled in. -/
theorem filled_inquiry (h : w.schema.Filled schema) {e e' : ShapeExpr} (he : e.Filled e')
    (node : Term) : (w.inquiry e node).Filled ((w.withSchema schema).inquiry e' node) := by
  cases he with
  | external e' => exact .failed _ _
  | or hes => exact filled_anyInquiry hes node
  | and hes => exact filled_allInquiry hes node
  | not he => exact (Inquiry.filled_question he node).bind fun b => .done _
  | node c id => exact Inquiry.filled_question (.node c id) node
  | shape hexpression => exact filled_shapeInquiry h hexpression node
  | ref label => exact Inquiry.filled_question (.ref label) node

/-! ## Sessions -/

variable (w schema) in
/-- Two sessions, the second one about the schema that is filled in, hold the same answers about
declarations, and right ones about constraints. -/
structure Alongside (s s' : Session) : Prop where
  sound : s.Sound w
  sound_filled : s'.Sound (w.withSchema schema)
  depth : s'.depth = s.depth
  declarations : s'.declarations = s.declarations

/-- Two new sessions stand alongside. -/
theorem Alongside.initial : w.Alongside schema .initial .initial :=
  ⟨Session.sound_initial _, Session.sound_initial _, rfl, rfl⟩

/-- A declaration that begins in both sessions leaves them alongside. -/
theorem Alongside.enter {s s' : Session} (h : w.Alongside schema s s') (index : Nat) (node : Term) :
    w.Alongside schema (s.enter index node) (s'.enter index node) :=
  ⟨h.sound.enter index node, h.sound_filled.enter index node,
    congrArg (· + 1) h.depth, congrArg (·.hold index node true) h.declarations⟩

/-- A declaration that ends with the same answer in both sessions leaves them alongside. -/
theorem Alongside.settle {s s' : Session} (h : w.Alongside schema s s') (index : Nat) (node : Term)
    (b : Bool) : w.Alongside schema (s.settle index node b) (s'.settle index node b) :=
  ⟨h.sound.settle index node b, h.sound_filled.settle index node b,
    congrArg (· - 1) h.depth, congrArg (·.hold index node b) h.declarations⟩

/-- A constraint has the answer that it has under another number. -/
theorem Alongside.constraint (hw : WellNumbered w.schema.constraints)
    (hschema : WellNumbered schema.constraints) {c : NodeConstraint} {id : Option Nat} {node : Term}
    {s s' t : Session} {b : Bool} (hs : w.Alongside schema s s')
    (hnum : (ShapeExpr.node c).NumberedIn w.schema)
    (hnum' : (ShapeExpr.node { c with id := id }).NumberedIn schema)
    (h : w.evaluateConstraint c node s = some (.ok b, t)) :
    ∃ t', (w.withSchema schema).evaluateConstraint { c with id := id } node s' =
      some (.ok b, t') ∧ w.Alongside schema t t' := by
  obtain ⟨r, t', h'⟩ :=
    (w.withSchema schema).exists_evaluateConstraint { c with id := id } node s'
  obtain ⟨hb, hsound, hdeclarations⟩ :=
    evaluateConstraint_sound hw (hnum c List.mem_cons_self) hs.sound h
  obtain ⟨hr, hsound', hdeclarations'⟩ :=
    evaluateConstraint_sound hschema (hnum' _ List.mem_cons_self) hs.sound_filled h'
  have hanswer : (w.withSchema schema).constraintAnswer { c with id := id } node =
      w.constraintAnswer c node := rfl
  have hr : r = .ok b := by rw [hr, hanswer, ← hb]
  subst hr
  have hdepth : t.depth = s.depth := Returns.depth_eq (returns_iff.2 (.constraint h))
  have hdepth' : t'.depth = s'.depth := Returns.depth_eq (returns_iff.2 (.constraint h'))
  refine ⟨t', h', hsound, hsound', ?_, ?_⟩
  · rw [hdepth', hs.depth, hdepth]
  · rw [hdeclarations', hs.declarations, hdeclarations]

/-- A session that comes to an answer comes to the same one with everything filled in. -/
theorem Returns.filled (hw : WellNumbered w.schema.constraints)
    (hschema : WellNumbered schema.constraints) (h : w.schema.Filled schema) {e e' : ShapeExpr}
    {node : Term} {s s' t : Session} {b : Bool} (hr : w.Returns e node s (.ok b) t)
    (he : e.Filled e') (hnum : e.NumberedIn w.schema) (hnum' : e'.NumberedIn schema)
    (hs : w.Alongside schema s s') :
    ∃ t', (w.withSchema schema).Returns e' node s' (.ok b) t' ∧ w.Alongside schema t t' := by
  refine Returns.induct (motive := fun e node s r t => ∀ b, r = .ok b → ∀ e', e.Filled e' →
    e.NumberedIn w.schema → e'.NumberedIn schema → ∀ s', w.Alongside schema s s' →
      ∃ t', (w.withSchema schema).Returns e' node s' (.ok b) t' ∧ w.Alongside schema t t')
    (fun e node s r t hstep => ?_) hr b rfl e' he hnum hnum' s' hs
  rintro b rfl e' he hnum hnum' s' hs
  -- The other evaluation takes the same step; only answers matter, so failing steps do not occur.
  cases hstep with
  | compound hc hq =>
    rcases he.isCompound hc with rfl | hc'
    · cases hq.1
    · obtain ⟨t', hq', ht⟩ := (filled_inquiry h he node).simulate (I := w.Alongside schema)
        (fun c c' m hm hm' hcc' u u' v b hu hb =>
          hb.2 b rfl c' hcc' (hnum.mentions hc hm) (hnum'.mentions hc' hm') u' hu) hs hq
      exact ⟨t', returns_iff.2 (.compound hc' hq'), ht⟩
  | constraint hc =>
    cases he
    obtain ⟨t', hc', ht⟩ := hs.constraint hw hschema hnum hnum' hc
    exact ⟨t', returns_iff.2 (.constraint hc'), ht⟩
  | unknown hl =>
    cases he
    exact ⟨s', returns_iff.2 (.unknown (h.find?_eq_none hl)), hs⟩
  | held hl ha =>
    cases he
    obtain ⟨d', hl', -⟩ := h.exists_find? hl
    rw [← hs.declarations] at ha
    exact ⟨s', returns_iff.2 (.held hl' ha), hs⟩
  | @settled label _ _ u index d _ henters hbody =>
    cases he
    obtain ⟨d', hl', hd⟩ := h.exists_find? henters.known
    obtain ⟨hconcrete, hexpression⟩ := hd.concrete henters.concrete
    have hdnum := ShapeExpr.numberedIn_of_find? henters.known
    have hdnum' := ShapeExpr.numberedIn_of_find? hl'
    obtain ⟨u', hu', hu⟩ :=
      hbody.2 _ rfl d'.expression hexpression hdnum hdnum' _ (hs.enter index node)
    have henters' : (w.withSchema schema).Enters label node s' index d' := by
      refine ⟨hl', ?_, hconcrete, ?_⟩
      · rw [hs.declarations]
        exact henters.unanswered
      · rw [hs.depth]
        exact henters.shallow
    exact ⟨_, returns_iff.2 (.settled henters' hu'), hu.settle index node _⟩

end Setting

/-! ## Requests -/

/-- A request in which the expression that it brings, if it brings one, is filled in. -/
inductive Request.Filled : Request → Request → Prop
  | labelled (node : Term) (label : Option Label) :
      Request.Filled (.labelled node label) (.labelled node label)
  | expression (node : Term) {e e' : ShapeExpr} (h : e.Filled e') :
      Request.Filled (.expression node e) (.expression node e')

namespace Setting

variable {w : Setting} {schema : Schema}

/-- Neither imports nor start actions are filled in, so what is refused stays refused. -/
theorem refusal?_filled (h : w.schema.Filled schema) :
    (w.withSchema schema).refusal? = w.refusal? := by
  show (if !schema.imports.isEmpty then _ else if !schema.startActs.isEmpty then _ else _) = _
  rw [h.imports, h.startActs]
  rfl

/-- A request puts the question that it puts without, filled in. -/
theorem rel_question? (h : w.schema.Filled schema) {q q' : Request} (hq : q.Filled q') :
    Option.Rel (fun asked asked' => asked.1.Filled asked'.1 ∧ asked'.2 = asked.2) (w.question? q)
      ((w.withSchema schema).question? q') := by
  cases hq with
  | expression node he => exact .some ⟨he, rfl⟩
  | labelled node label =>
    unfold question?
    dsimp only
    rw [refusal?_filled h]
    cases w.refusal? with
    | some feature => exact .none
    | none =>
      cases label with
      | some label => exact .some ⟨.ref label, rfl⟩
      | none =>
        have hstart := h.start
        show Option.Rel _ (w.schema.start.map _) (schema.start.map _)
        generalize w.schema.start = e, schema.start = e' at hstart
        cases hstart with
        | none => exact .none
        | some he => exact .some ⟨he, rfl⟩

end Setting

/-- A schema with gaps: a declaration `B`, the value expression of arcs `q`, and an operand behind
one that holds where an arc `p` leads to the next `A`. -/
def Schema.withGaps (d : Declaration) (value operand : ShapeExpr) : Schema :=
  ((Schema.empty.addShape d).addTripleExpression (.iri ⟨"T"⟩)
    (.triple ⟨⟨"q"⟩, false, some value, .zeroOrMore, []⟩)).addShape
      ⟨.iri ⟨"A"⟩, false, .or [
        .and [.node ⟨some .iri, none, [], [], [], none⟩, .shape ⟨false, [], some (.eachOf ⟨[
          .triple (.to ⟨"p"⟩ (.ref (.iri ⟨"A"⟩))), .ref (.iri ⟨"T"⟩)], none, []⟩), [], [], []⟩],
        operand, .ref (.iri ⟨"B"⟩)]⟩

/-- Whatever is put into the gaps fills them in. -/
theorem Schema.filled_withGaps {d d' : Declaration} (hd : d.Filled d') (value operand : ShapeExpr) :
    (Schema.withGaps d .external .external).Filled (.withGaps d' value operand) := by
  refine ((Schema.Filled.empty.addShape hd).addTripleExpression _ ?_).addShape ⟨rfl, fun _ => ?_⟩
  · exact .triple (.some (.external value))
  · refine ⟨rfl, .or (.cons (.and (.cons ?_ (.cons ?_ .nil))) (.cons ?_ (.cons ?_ .nil)))⟩
    · exact .node _ none
    · refine .shape (.some (.eachOf (.cons ?_ (.cons ?_ .nil))))
      · exact .triple (.some (.ref _))
      · exact .ref _
    · exact .external operand
    · exact .ref _

/-- The schema with an abstract declaration and external shapes in its gaps, over a graph that turns
in a circle. -/
def Setting.gapped : Setting where
  schema := .withGaps ⟨.iri ⟨"B"⟩, true, .external⟩ .external .external
  graph := circle
  listing := circle.asInserted
  limits := .standard

/-- The schema with node constraints and a reference to the declaration `A` in its gaps. -/
def Schema.filledGaps : Schema :=
  .withGaps ⟨.iri ⟨"B"⟩, false, .node ⟨some .literal, none, [], [], [], none⟩⟩
    (.node ⟨some .iri, none, [], [], [], none⟩) (.not (.ref (.iri ⟨"A"⟩)))

namespace Session

/-- Answers do not depend on what is not supported: if a fresh session answers a request, it gives
the same answer when anything is put in the place of external shapes and of abstract declarations,
anywhere in the schema. -/
theorem respond_filled {w : Setting} {schema : Schema} (hw : w.schema.Built)
    (hschema : schema.Built) (h : w.schema.Filled schema) {q q' : Request} (hqq : q.Filled q')
    (hq : w.Proper q) (hq' : (w.withSchema schema).Proper q') {b : Bool} {t : Session}
    (hr : initial.respond w q = some (.ok b, t)) :
    ∃ t', initial.respond (w.withSchema schema) q' = some (.ok b, t') := by
  simp only [respond_eq_some_iff] at hr ⊢
  have hquestion := Setting.rel_question? h hqq
  cases hasked : w.question? q with
  | none =>
    rw [hasked] at hr hquestion
    generalize (w.withSchema schema).question? q' = asked' at hquestion
    cases hquestion
    refine ⟨initial, ?_, rfl⟩
    rw [hr.1]
    unfold Setting.standing
    rw [Setting.refusal?_filled h]
  | some asked =>
    obtain ⟨e, node⟩ := asked
    rw [hasked] at hr hquestion
    cases hasked' : (w.withSchema schema).question? q' with
    | none =>
      rw [hasked'] at hquestion
      cases hquestion
    | some asked' =>
      obtain ⟨e', node'⟩ := asked'
      rw [hasked'] at hquestion
      obtain ⟨⟨he, rfl⟩⟩ := hquestion
      obtain ⟨t', ht', -⟩ := Setting.Returns.filled hw.wellNumbered hschema.wellNumbered h hr he
        (hq.numberedIn hasked) (hq'.numberedIn hasked') .initial
      exact ⟨t', ht'⟩

/-- An answer that comes about in front of all gaps stays when they are filled in, also by what
refers to the declaration itself; the node constraint in front of them has another number then. -/
theorem respond_filled_gapped :
    Setting.gapped.schema.Built ∧ Schema.filledGaps.Built ∧
      Setting.gapped.schema.Filled .filledGaps ∧
      (∃ t, initial.respond .gapped (.labelled (.iri ⟨"n"⟩) (some (.iri ⟨"A"⟩))) =
        some (.ok true, t)) ∧
      ∃ t', initial.respond (.withSchema .gapped .filledGaps)
        (.labelled (.iri ⟨"n"⟩) (some (.iri ⟨"A"⟩))) = some (.ok true, t') := by
  have hw : Setting.gapped.schema.Built :=
    ((Schema.Built.empty.addShape _).addTripleExpression _ _).addShape _
  have hschema : Schema.filledGaps.Built :=
    ((Schema.Built.empty.addShape _).addTripleExpression _ _).addShape _
  have hfilled : Setting.gapped.schema.Filled .filledGaps := by
    refine Schema.filled_withGaps ?_ _ _
    exact ⟨rfl, nofun⟩
  have hanswer : initial.respond .gapped (.labelled (.iri ⟨"n"⟩) (some (.iri ⟨"A"⟩))) =
      some (.ok true, _) := rfl
  exact ⟨hw, hschema, hfilled, ⟨_, hanswer⟩,
    respond_filled hw hschema hfilled (.labelled _ _) trivial trivial hanswer⟩

end Session

end ShEx
