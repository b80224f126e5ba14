import Mathlib.Data.Set.Defs
import ShEx.Proofs.ArcSharing
import ShEx.Proofs.CacheTransparency

/-!
# Typings

A typing says of which declarations nodes are to be.  An expression without negation holds under it
if it holds with every reference to a known label answered by the typing, and a typing is valid if
each of its pairs holds under it.

Under a schema without negation and without inverse triple constraints, more answers `true` never
make a shape fail (`HoldsUnder.answer_eq_true`).  So a session, which takes declarations in progress
to hold, rejects no pair of any valid typing, and no rejection that it keeps is of such a pair
(`Returns.rejects`).
-/

set_option autoImplicit false

namespace ShEx

open ShEx.Rdf

/-- Pairs of the number of a declaration and a node. -/
abbrev Typing := Set (Nat × Term)

namespace Setting

/-- Does an expression without negation hold at a node if a reference to a known label holds where
the typing has its declaration?  A shape holds if its arcs can be shared out among slots whose value
expressions hold so. -/
inductive HoldsUnder (w : Setting) (T : Typing) : ShapeExpr → Term → Prop
  | or {operands : List ShapeExpr} {e : ShapeExpr} {node : Term} (he : e ∈ operands)
      (h : HoldsUnder w T e node) : HoldsUnder w T (.or operands) node
  | and {operands : List ShapeExpr} {node : Term} (h : ∀ e ∈ operands, HoldsUnder w T e node) :
      HoldsUnder w T (.and operands) node
  | constraint {c : NodeConstraint} {node : Term} (h : w.constraintAnswer c node = .ok true) :
      HoldsUnder w T (.node c) node
  | known {label : Label} {node : Term} {index : Nat} {d : Declaration}
      (hl : w.schema.find? label = some (index, d)) (ht : (index, node) ∈ T) :
      HoldsUnder w T (.ref label) node
  | shape {shape : Shape} {node : Term} {f : Formula} {slots : List TripleConstraint}
      {holds : ShapeExpr → Term → Bool} {shares : List (Arc × Choice)}
      (hf : w.schema.ExpandsTo shape.expression f slots)
      (hholds : ∀ v m, holds v m = true → HoldsUnder w T v m)
      (hs : w.Sharing holds shape slots node shares)
      (hcounts : (f.evaluate slots (countsOf slots.length (shares.map (·.2)))).holds = true) :
      HoldsUnder w T (.shape shape) node

/-- Every pair of the typing holds under it. -/
def Valid (w : Setting) (T : Typing) : Prop :=
  ∀ index node, (index, node) ∈ T →
    ∃ d, w.schema.declaration? index = some d ∧ w.HoldsUnder T d.expression node

end Setting

/-- Is an expression no negation and, if it is a shape, without triple constraints that speak about
incoming arcs? -/
def ShapeExpr.isPositive : ShapeExpr → Bool
  | .not _ => false
  | .shape s => s.triples.all (!·.inverse)
  | _ => true

/-- No negation stands in the schema, and no triple constraint speaks about incoming arcs. -/
structure Schema.Positive (s : Schema) : Prop where
  expressions : ∀ e ∈ s.expressions, e.isPositive = true
  labelled : ∀ entry ∈ s.tripleExpressions, ∀ t ∈ entry.2.triples, t.inverse = false

/-- A schema of declarations that are nested once only can be looked through. -/
theorem Schema.positive_of_flat {s : Schema} (htriples : s.tripleExpressions = [])
    (hstart : s.start = none)
    (h : (s.declarations.all fun d => d.expression.isPositive &&
      d.expression.children.all fun c => c.isPositive && c.children.isEmpty) = true) :
    s.Positive := by
  refine ⟨fun e he => ?_, fun entry hentry => ?_⟩
  · have he : e ∈ s.declarations.flatMap fun d => d.expression.parts := by
      simpa [expressions, htriples, hstart] using he
    obtain ⟨d, hd, he⟩ := List.mem_flatMap.1 he
    have hd := List.all_eq_true.1 h d hd
    rw [Bool.and_eq_true, List.all_eq_true] at hd
    have hflat : ∀ c ∈ d.expression.children, c.children = [] := by
      intro c hc
      have hc := hd.2 c hc
      rw [Bool.and_eq_true, List.isEmpty_iff] at hc
      exact hc.2
    rw [ShapeExpr.parts_of_leaves hflat] at he
    rcases List.mem_cons.1 he with rfl | he
    · exact hd.1
    · have hc := hd.2 e he
      rw [Bool.and_eq_true] at hc
      exact hc.1
  · rw [htriples] at hentry
    cases hentry

/-! ## More answers -/

section More

variable {holds holds' : ShapeExpr → Term → Bool}

/-- Asking about operands until one holds answers whether any holds. -/
theorem Inquiry.answer_anyInquiry (node : Term) (operands : List ShapeExpr) :
    (anyInquiry node operands).answer holds = .ok (operands.any fun e => holds e node) := by
  induction operands with
  | nil => rfl
  | cons e rest ih =>
    rw [anyInquiry, answer_bind, List.any_cons]
    show (if holds e node then _ else _ : Inquiry Bool).answer holds = _
    cases holds e node with
    | true => rfl
    | false => exact ih

/-- Asking about operands until one fails answers whether all hold. -/
theorem Inquiry.answer_allInquiry (node : Term) (operands : List ShapeExpr) :
    (allInquiry node operands).answer holds = .ok (operands.all fun e => holds e node) := by
  induction operands with
  | nil => rfl
  | cons e rest ih =>
    rw [allInquiry, answer_bind, List.all_cons]
    show (if holds e node then _ else _ : Inquiry Bool).answer holds = _
    cases holds e node with
    | true => exact ih
    | false => rfl

/-- If more value expressions hold, a triple constraint admits no fewer arcs. -/
theorem TripleConstraint.admits_mono {t : TripleConstraint} {arc : Arc}
    (h : ∀ v, t.value = some v → holds v arc.neighbour = true → holds' v arc.neighbour = true)
    (ha : t.admits holds arc) : t.admits holds' arc := by
  unfold TripleConstraint.admits at ha ⊢
  rw [Bool.and_eq_true] at ha ⊢
  refine ⟨ha.1, ?_⟩
  cases hv : t.value with
  | none => rfl
  | some v =>
    rw [hv] at ha
    exact h v hv ha.2

/-- If more arcs are admitted, an arc has no fewer places. -/
theorem Shape.places_mono {shape : Shape} {slots : List TripleConstraint} {arc : Arc}
    (h : ∀ t ∈ slots, t.admits holds arc → t.admits holds' arc) {c : Choice}
    (hc : c ∈ shape.places holds slots arc) : c ∈ shape.places holds' slots arc := by
  rw [Shape.mem_places] at hc ⊢
  refine hc.imp_left ?_
  rintro ⟨i, t, hi, ha, rfl⟩
  exact ⟨i, t, hi, h t (List.mem_of_getElem? hi) ha, rfl⟩

/-- Slots for outgoing arcs leave no incoming arc to be placed. -/
theorem filter_incomingArcs {w : Setting} {slots : List TripleConstraint} {node : Term}
    (hslots : ∀ t ∈ slots, t.inverse = false) :
    (incomingArcs w.listing node).filter (fun arc => slots.any (·.admits holds arc)) = [] := by
  rw [List.filter_eq_nil_iff]
  intro arc harc hany
  obtain ⟨t, ht, ha⟩ := List.any_eq_true.1 hany
  obtain ⟨triple, -, rfl⟩ := List.mem_map.1 harc
  simp [TripleConstraint.admits, TripleConstraint.concerns, hslots t ht] at ha

/-- A sharing remains one if slots admit more arcs, and inverse slots no more than before. -/
theorem Setting.Sharing.mono {w : Setting} {shape : Shape} {slots : List TripleConstraint}
    {node : Term} {shares : List (Arc × Choice)}
    (hmore : ∀ t ∈ slots, ∀ arc, t.admits holds arc → t.admits holds' arc)
    (hinverse : ∀ t ∈ slots, t.inverse = true → ∀ arc, t.admits holds' arc → t.admits holds arc)
    (hs : w.Sharing holds shape slots node shares) :
    w.Sharing holds' shape slots node shares where
  arcs := by
    rw [hs.arcs]
    congr 1
    refine List.filter_congr fun arc harc => ?_
    rw [Bool.eq_iff_iff, List.any_eq_true, List.any_eq_true]
    refine exists_congr fun t => and_congr_right fun ht => ⟨hmore t ht arc, fun ha => ?_⟩
    refine hinverse t ht ?_ arc ha
    obtain ⟨triple, -, rfl⟩ := List.mem_map.1 harc
    unfold TripleConstraint.admits TripleConstraint.concerns at ha
    simp only [Bool.and_eq_true, decide_eq_true_eq] at ha
    exact ha.1.1
  placed share hshare :=
    Shape.places_mono (fun t ht => hmore t ht share.1) (hs.placed share hshare)

end More

/-- The slots of a positive schema look at arcs from the node only. -/
theorem Schema.Positive.slots {s : Schema} (h : s.Positive) {shape : Shape}
    (hshape : .shape shape ∈ s.expressions) {f : Formula} {slots : List TripleConstraint}
    (hf : s.ExpandsTo shape.expression f slots) : ∀ t ∈ slots, t.inverse = false := by
  intro t ht
  cases hte : shape.expression with
  | none =>
    rw [hte] at hf
    rw [hf.2] at ht
    cases ht
  | some te =>
    rw [hte] at hf
    rcases Expands.slots hf t ht with ht | ⟨te', hlead, ht⟩
    · cases ht
    · rcases hlead.labelled with rfl | ⟨label, hl⟩
      · have hall : shape.triples.all (!·.inverse) = true := h.expressions _ hshape
        rw [Shape.triples, hte] at hall
        simpa using List.all_eq_true.1 hall t ht
      · exact h.labelled _ (mem_of_tripleExpression? hl) t ht

namespace Setting

variable {w : Setting} {T : Typing}

open scoped Classical in
/-- A shape of the schema holds under a typing if and only if its arcs can be shared out among the
slots whose value expressions hold under it. -/
theorem holdsUnder_shape_iff (hpos : w.schema.Positive) {shape : Shape} {node : Term}
    (hmem : .shape shape ∈ w.schema.expressions) :
    w.HoldsUnder T (.shape shape) node ↔
      ∃ f slots shares, w.schema.ExpandsTo shape.expression f slots ∧
        w.Sharing (fun v m => decide (w.HoldsUnder T v m)) shape slots node shares ∧
        (f.evaluate slots (countsOf slots.length (shares.map (·.2)))).holds = true := by
  constructor
  · intro h
    cases h with
    | shape hf hholds hs hcounts =>
      have hslots := hpos.slots hmem hf
      refine ⟨_, _, _, hf, hs.mono (fun t _ arc ha => ?_) (fun t ht hinv => ?_), hcounts⟩
      · exact TripleConstraint.admits_mono (fun v _ hv => decide_eq_true (hholds v _ hv)) ha
      · exact absurd hinv (Bool.eq_false_iff.1 (hslots t ht))
  · rintro ⟨f, slots, shares, hf, hs, hcounts⟩
    exact .shape hf (fun v m hv => of_decide_eq_true hv) hs hcounts

/-- What holds under a typing is found to hold if all that holds under it is taken to hold, and
possibly more. -/
theorem HoldsUnder.answer_eq_true (hpos : w.schema.Positive) {e : ShapeExpr} {node : Term}
    (he : e ∈ w.schema.expressions) (hc : e.isCompound) (h : w.HoldsUnder T e node)
    {holds : ShapeExpr → Term → Bool} (hholds : ∀ v m, w.HoldsUnder T v m → holds v m = true)
    {b : Bool} (hb : (w.inquiry e node).answer holds = .ok b) : b = true := by
  classical
  cases e with
  | or operands =>
    rw [inquiry, Inquiry.answer_anyInquiry] at hb
    cases hb
    cases h with
    | or hmem h => exact List.any_eq_true.2 ⟨_, hmem, hholds _ _ h⟩
  | and operands =>
    rw [inquiry, Inquiry.answer_allInquiry] at hb
    cases hb
    cases h with
    | and h => exact List.all_eq_true.2 fun e he => hholds e node (h e he)
  | shape shape =>
    obtain ⟨f, slots, hcompile, hiff⟩ := answer_shapeInquiry hb
    obtain ⟨f', slots', shares, hf, hs, hcounts⟩ := (holdsUnder_shape_iff hpos he).1 h
    obtain ⟨rfl, rfl⟩ := hf.unique (Schema.expandsTo_of_compile hcompile)
    have hslots := hpos.slots he hf
    refine hiff.2 ⟨shares, hs.mono (fun t _ arc ha => ?_) (fun t ht hinv => ?_), hcounts⟩
    · exact TripleConstraint.admits_mono (fun v _ hv => hholds v _ (of_decide_eq_true hv)) ha
    · exact absurd hinv (Bool.eq_false_iff.1 (hslots t ht))
  | not operand => cases h
  | external => cases h
  | node c => cases hc
  | ref label => cases hc

/-- What is found to hold holds under a typing if all that is taken to hold does. -/
theorem holdsUnder_of_answer (hpos : w.schema.Positive) {e : ShapeExpr} {node : Term}
    (he : e ∈ w.schema.expressions) (hc : e.isCompound) {holds : ShapeExpr → Term → Bool}
    (hholds : ∀ v m, holds v m = true → w.HoldsUnder T v m)
    (h : (w.inquiry e node).answer holds = .ok true) : w.HoldsUnder T e node := by
  cases e with
  | or operands =>
    rw [inquiry, Inquiry.answer_anyInquiry] at h
    obtain ⟨e', hmem, he'⟩ := List.any_eq_true.1 (Except.ok.inj h)
    exact .or hmem (hholds e' node he')
  | and operands =>
    rw [inquiry, Inquiry.answer_allInquiry] at h
    have hall := List.all_eq_true.1 (Except.ok.inj h)
    exact .and fun e' hmem => hholds e' node (hall e' hmem)
  | shape shape =>
    obtain ⟨f, slots, hcompile, hiff⟩ := answer_shapeInquiry h
    obtain ⟨shares, hs, hcounts⟩ := hiff.1 rfl
    exact .shape (Schema.expandsTo_of_compile hcompile) hholds hs hcounts
  | not operand => cases hpos.expressions _ he
  | external => cases h
  | node c => cases hc
  | ref label => cases hc

/-! ## What is rejected -/

/-- The rejections that a session holds are of no pair of a valid typing. -/
def RejectsOnly (w : Setting) (s : Session) : Prop :=
  ∀ index node, s.declarations.answer? index node = some false →
    ∀ T, w.Valid T → (index, node) ∉ T

/-- Holding an answer keeps this, if a rejection is of no pair of a valid typing. -/
theorem RejectsOnly.hold {s t : Session} (h : w.RejectsOnly s) {index : Nat} {node : Term}
    {b : Bool} (ht : t.declarations = s.declarations.hold index node b)
    (hb : b = false → ∀ T, w.Valid T → (index, node) ∉ T) : w.RejectsOnly t := by
  intro i m hm
  rw [ht] at hm
  rcases Answers.answer?_hold_cases hm with ⟨⟨rfl, rfl⟩, hfalse⟩ | ⟨-, hm⟩
  · exact hb hfalse
  · exact h i m hm

/-- Forgetting an answer rejects nothing. -/
theorem RejectsOnly.forget {s t : Session} (h : w.RejectsOnly s) {index : Nat} {node : Term}
    (ht : t.declarations = s.declarations.forget index node) : w.RejectsOnly t := by
  intro i m hm
  rw [ht] at hm
  exact h i m (Answers.answer?_forget_cases hm).2

/-- What the sessions of requests keep: constraints are answered rightly, and no pair of a valid
typing is rejected. -/
structure Fair (w : Setting) (s : Session) : Prop where
  sound : s.Sound w
  rejects : w.RejectsOnly s

/-- A declaration that begins is taken to hold, which rejects nothing. -/
theorem Fair.enter {s : Session} (h : w.Fair s) (index : Nat) (node : Term) :
    w.Fair (s.enter index node) :=
  ⟨h.sound.enter index node, h.rejects.hold rfl nofun⟩

/-- A declaration is settled fairly if it is rejected where no valid typing has the pair. -/
theorem Fair.settle {s : Session} (h : w.Fair s) {index : Nat} {node : Term} {b : Bool}
    (hb : b = false → ∀ T, w.Valid T → (index, node) ∉ T) : w.Fair (s.settle index node b) :=
  ⟨h.sound.settle index node b, h.rejects.hold rfl hb⟩

/-- A declaration that is abandoned is not rejected. -/
theorem Fair.abandon {s : Session} (h : w.Fair s) (index : Nat) (node : Term) :
    w.Fair (s.abandon index node) :=
  ⟨h.sound.abandon index node, h.rejects.forget rfl⟩

/-- Under a typing, references hold at the pairs of the typing only. -/
theorem not_holdsUnder_ref {T : Typing} {label : Label} {index : Nat} {d : Declaration}
    {node : Term} (hl : w.schema.find? label = some (index, d)) (hnot : (index, node) ∉ T) :
    ¬w.HoldsUnder T (.ref label) node := by
  intro hT
  cases hT with
  | known hl' ht =>
    rw [hl] at hl'
    cases hl'
    exact hnot ht

open scoped Classical in
/-- An expression that is rejected holds under no valid typing, if that is so of the questions on
the way. -/
theorem not_holdsUnder_of_follows (hpos : w.schema.Positive) {e : ShapeExpr} {node : Term}
    (he : e ∈ w.schema.expressions) (hc : e.isCompound) {s t : Session}
    (h : (w.inquiry e node).Follows (fun e' m s r u => w.Returns e' m s r u ∧
      (r = .ok false → ¬w.HoldsUnder T e' m) ∧ u.Within t) s (.ok false) t) :
    ¬w.HoldsUnder T e node := by
  intro hT
  -- What is found to hold on the way is found again behind it.
  have hanswer : (w.inquiry e node).answer
      (fun e' m => decide (w.HoldsUnder T e' m ∨ w.Returns e' m t (.ok true) t)) = .ok false := by
    refine h.answer_eq fun e' m s b u hR => ?_
    obtain ⟨hret, hnot, hut⟩ := hR
    have hagain := hret.again hut
    cases b with
    | true => exact decide_eq_true (.inr hagain)
    | false =>
      refine decide_eq_false ?_
      rintro (hT | htrue)
      · exact hnot rfl hT
      · cases (hagain.unique htrue).1
  have htrue := hT.answer_eq_true hpos he hc (fun v m hv => decide_eq_true (.inl hv)) hanswer
  cases htrue

/-- No pair of a valid typing is rejected, and no expression of the schema that holds under one. -/
theorem Returns.rejects (hw : WellNumbered w.schema.constraints) (hpos : w.schema.Positive)
    {e : ShapeExpr} {node : Term} {s t : Session} {r : Except Failure Bool}
    (h : w.Returns e node s r t) (he : e.NumberedIn w.schema) (hs : w.Fair s) :
    w.Fair t ∧ (e ∈ w.schema.expressions → r = .ok false →
      ∀ T, w.Valid T → ¬w.HoldsUnder T e node) := by
  refine h.induct (motive := fun e node s r t => e.NumberedIn w.schema → w.Fair s →
    w.Fair t ∧ (e ∈ w.schema.expressions → r = .ok false →
      ∀ T, w.Valid T → ¬w.HoldsUnder T e node)) (fun e node s r t hstep he hs => ?_) he hs
  -- What is held rejects rightly, and the questions that a step asks do so by induction.
  cases hstep with
  | compound hc hq =>
    have hmentions : ∀ e' m, (w.inquiry e node).Mentions e' m → e'.NumberedIn w.schema :=
      fun e' m hm => he.mentions hc hm
    refine ⟨hq.invariant (fun _ _ _ _ _ hR hn hs => (hR.2 hn hs).1) hmentions hs, ?_⟩
    rintro hmem rfl T hT
    have hcourse := hq.course (fun _ _ _ _ _ hR => hR.1)
      (fun _ _ _ _ _ hR hn hs => (hR.2 hn hs).1) hmentions hs
    refine not_holdsUnder_of_follows hpos hmem hc (hcourse.mono fun e' m s r u hR => ?_)
    obtain ⟨⟨hret, ih⟩, hreach, hs, hut⟩ := hR
    have hembeds := (embeds_of_mentions hc hreach.mentions).1
    have hmem' := w.schema.closed_expressions.embeds e e' hembeds hmem
    exact ⟨hret, fun hr => (ih (he.embeds hembeds) hs).2 hmem' hr T hT, hut⟩
  | @constraint c _ _ _ _ hc =>
    obtain ⟨hr, hsound, hdecl⟩ :=
      evaluateConstraint_sound hw (he c (List.mem_singleton.2 rfl)) hs.sound hc
    refine ⟨⟨hsound, fun i m hm => hs.rejects i m (hdecl ▸ hm)⟩, ?_⟩
    rintro - hfalse T - hT
    cases hT with
    | constraint htrue =>
      rw [hr, htrue] at hfalse
      cases hfalse
  | unknown hl =>
    refine ⟨hs, ?_⟩
    rintro - - T - hT
    cases hT with
    | known hl' _ =>
      rw [hl] at hl'
      cases hl'
  | held hl ha =>
    refine ⟨hs, ?_⟩
    rintro - hfalse T hT
    cases hfalse
    exact not_holdsUnder_ref hl (hs.rejects _ _ ha T hT)
  | refused _ _ _ => exact ⟨hs, nofun⟩
  | tooDeep _ _ _ _ => exact ⟨hs, nofun⟩
  | @settled label _ _ t index d b hent hr =>
    obtain ⟨hret, ih⟩ := hr
    obtain ⟨hmem, -⟩ := Schema.mem_of_find? hent.known
    have hdecl := (Schema.label_of_find? hent.known).2
    obtain ⟨ht, hnot⟩ := ih (ShapeExpr.numberedIn_of_declared hmem) (hs.enter index node)
    -- If the body is rejected, a valid typing with the pair would make the body hold.
    have hout : b = false → ∀ T, w.Valid T → (index, node) ∉ T := by
      rintro rfl T hT hin
      obtain ⟨d', hd', hholds⟩ := hT index node hin
      rw [hdecl] at hd'
      cases hd'
      exact hnot (Schema.declared_mem_expressions hmem) rfl T hT hholds
    refine ⟨ht.settle hout, ?_⟩
    rintro - hfalse T hT
    cases hfalse
    exact not_holdsUnder_ref hent.known (hout rfl T hT)
  | @abandoned label _ _ t index d f hent hr =>
    obtain ⟨-, ih⟩ := hr
    obtain ⟨hmem, -⟩ := Schema.mem_of_find? hent.known
    obtain ⟨ht, -⟩ := ih (ShapeExpr.numberedIn_of_declared hmem) (hs.enter index node)
    exact ⟨ht.abandon index node, nofun⟩

/-- A node that is rejected for a declaration is of it in no valid typing. -/
theorem Returns.not_mem_of_rejected (hw : WellNumbered w.schema.constraints)
    (hpos : w.schema.Positive) {label : Label} {node : Term} {s t : Session}
    (h : w.Returns (.ref label) node s (.ok false) t) (hs : w.Fair s) {index : Nat}
    {d : Declaration} (hl : w.schema.find? label = some (index, d)) (hT : w.Valid T) :
    (index, node) ∉ T :=
  (h.rejects hw hpos nofun hs).1.rejects index node (h.answered hl) T hT

/-- A new session holds nothing, so it is fair. -/
theorem fair_initial : w.Fair .initial := ⟨Session.sound_initial w, nofun⟩

/-- Every session that proper requests come to is fair, by induction on the requests. -/
theorem fair_of_reached (hw : WellNumbered w.schema.constraints) (hpos : w.schema.Positive)
    {s : Session} (h : s.Reached w w.Proper) : w.Fair s := by
  induction h with
  | initial => exact fair_initial
  | after _ hq hr ih =>
    rcases Session.respond_cases hr with ⟨e, node, hquestion, hr⟩ | ⟨-, -, rfl⟩
    · exact (hr.rejects hw hpos (hq.numberedIn hquestion) ih).1
    · exact ih

end Setting

/-! ## A circle and an arc that leads out of it -/

namespace Setting

/-- The two declarations that ask for each other, on a circle and on an arc to a node without
arcs. -/
def circleAndArc : Setting where
  schema := Setting.mutual.schema
  graph := .ofList [⟨.iri ⟨"n"⟩, ⟨"p"⟩, .iri ⟨"n"⟩⟩, ⟨.iri ⟨"m"⟩, ⟨"p"⟩, .iri ⟨"x"⟩⟩]
  listing := Graph.asInserted _
  limits := .standard

/-- Only a reference to one label holds, and only at one node. -/
def onlyReference (label : String) : ShapeExpr → Term → Bool
  | .ref l, m => l = .iri ⟨label⟩ && m = .iri ⟨"n"⟩
  | _, _ => false

/-- Each of the two declarations holds on the circle if the other one does. -/
theorem valid_circleAndArc : circleAndArc.Valid {(0, .iri ⟨"n"⟩), (1, .iri ⟨"n"⟩)} := by
  have hpointing : ∀ label index d, circleAndArc.schema.find? (.iri ⟨label⟩) = some (index, d) →
      ∀ T : Typing, (index, .iri ⟨"n"⟩) ∈ T →
        circleAndArc.HoldsUnder T (pointing label) (.iri ⟨"n"⟩) := by
    intro label index d hl T ht
    have hadmits : (TripleConstraint.to ⟨"p"⟩ (.ref (.iri ⟨label⟩))).admits (onlyReference label)
        ⟨false, ⟨"p"⟩, .iri ⟨"n"⟩⟩ := by
      simp [TripleConstraint.admits, TripleConstraint.concerns, TripleConstraint.to, onlyReference]
    have hbelow : ∀ v m, onlyReference label v m = true → circleAndArc.HoldsUnder T v m := by
      intro v m hv
      cases v with
      | ref l =>
        have hv : l = .iri ⟨label⟩ ∧ m = .iri ⟨"n"⟩ := by simpa [onlyReference] using hv
        obtain ⟨rfl, rfl⟩ := hv
        exact .known hl ht
      | _ => cases hv
    have hs : circleAndArc.Sharing (onlyReference label)
        (.ofTriple (.to ⟨"p"⟩ (.ref (.iri ⟨label⟩)))) [.to ⟨"p"⟩ (.ref (.iri ⟨label⟩))] (.iri ⟨"n"⟩)
        [(⟨false, ⟨"p"⟩, .iri ⟨"n"⟩⟩, .slot 0)] := by
      refine ⟨?_, ?_⟩
      · rw [filter_incomingArcs (by simp [TripleConstraint.to])]
        rfl
      · intro share hshare
        cases List.mem_singleton.1 hshare
        exact Shape.mem_places.2 (.inl ⟨0, _, rfl, hadmits, rfl⟩)
    exact .shape Schema.Expands.triple hbelow hs rfl
  intro index node h
  have h : (index = 0 ∧ node = .iri ⟨"n"⟩) ∨ index = 1 ∧ node = .iri ⟨"n"⟩ := by
    simpa using h
  rcases h with ⟨rfl, rfl⟩ | ⟨rfl, rfl⟩
  · exact ⟨_, rfl, hpointing "B" 1 _ rfl _ (by simp)⟩
  · exact ⟨_, rfl, hpointing "A" 0 _ rfl _ (by simp)⟩

/-- The schema of the example negates nothing. -/
theorem positive_circleAndArc : circleAndArc.schema.Positive :=
  Schema.positive_of_flat rfl rfl rfl

end Setting

/-! ## Requests -/

namespace Session

variable {w : Setting}

/-- A request about a declaration that is answered puts the question of its label. -/
theorem returns_of_validate {s t : Session} {node : Term} {label : Label} {b : Bool}
    (h : s.validate w node (some label) = some (.ok b, t)) :
    w.Returns (.ref label) node s (.ok b) t := by
  have h := validate_eq_some_iff.1 h
  unfold Setting.Responds at h
  cases hf : w.refusal? with
  | some feature =>
    rw [hf] at h
    cases h.1
  | none =>
    rw [hf] at h
    exact h

/-- Whatever a session was asked before, a node that is rejected for a declaration is of it in no
valid typing. -/
theorem not_typed_of_rejected (hbuilt : w.schema.Built) (hpos : w.schema.Positive)
    {s t : Session} (hs : s.Reached w w.Proper) {node : Term} {label : Label}
    (h : s.validate w node (some label) = some (.ok false, t)) {index : Nat} {d : Declaration}
    (hl : w.schema.find? label = some (index, d)) {T : Typing} (hT : w.Valid T) :
    (index, node) ∉ T := by
  have hw := hbuilt.wellNumbered
  have hfair := Setting.fair_of_reached hw hpos hs
  exact (returns_of_validate h).not_mem_of_rejected hw hpos hfair hl hT

/-- Behind a request that is answered on the circle, the arc is rejected. -/
theorem not_typed_of_rejected_afterCircle : ∃ s t : Session,
    initial.validate .circleAndArc (.iri ⟨"n"⟩) (some (.iri ⟨"A"⟩)) = some (.ok true, s) ∧
    s.validate .circleAndArc (.iri ⟨"m"⟩) (some (.iri ⟨"B"⟩)) = some (.ok false, t) ∧
    (1, Term.iri ⟨"m"⟩) ∉ ({(0, .iri ⟨"n"⟩), (1, .iri ⟨"n"⟩)} : Typing) := by
  have h₁ : initial.validate .circleAndArc (.iri ⟨"n"⟩) (some (.iri ⟨"A"⟩)) =
      some (.ok true, ⟨0, [((0, .iri ⟨"n"⟩), true), ((1, .iri ⟨"n"⟩), true)], [], []⟩) := rfl
  have h₂ : validate ⟨0, [((0, .iri ⟨"n"⟩), true), ((1, .iri ⟨"n"⟩), true)], [], []⟩
      .circleAndArc (.iri ⟨"m"⟩) (some (.iri ⟨"B"⟩)) = some (.ok false, _) := rfl
  have hreached : Reached .circleAndArc Setting.circleAndArc.Proper
      ⟨0, [((0, .iri ⟨"n"⟩), true), ((1, .iri ⟨"n"⟩), true)], [], []⟩ :=
    .after (q := .labelled (.iri ⟨"n"⟩) (some (.iri ⟨"A"⟩))) .initial trivial h₁
  refine ⟨_, _, h₁, h₂, ?_⟩
  exact not_typed_of_rejected ((Schema.Built.empty.addShape _).addShape _)
    Setting.positive_circleAndArc hreached h₂ rfl Setting.valid_circleAndArc

end Session

end ShEx
