import ShEx.Proofs.Acyclic
import ShEx.Proofs.OneOf

/-!
# What it means that a node conforms

`Setting.Conforms` says whether a node conforms to an expression, with nothing kept, counted or
limited: connectives have their usual meaning, a constraint is decided on the node, a reference
stands for its declaration and an unknown label holds nowhere.  A shape asks that the arcs of the
node can be shared out among its slots so that its formula holds, where a slot admits an arc if the
node at the other end conforms to its value expression.

There is at most one answer (`Conforms.unique`).  Under a schema without recursion there is one to
every question in which each part has a meaning (`exists_conforms`).
-/

set_option autoImplicit false

namespace ShEx

open ShEx.Rdf

/-! ## Triple expressions without recursion -/

namespace Schema

/-- If each member stands for a formula behind any slots, the members do so one after the other. -/
theorem exists_expandsAll {s : Schema} {members : List TripleExpr}
    (h : ∀ e ∈ members, ∀ before, ∃ f after, s.Expands e before f after)
    (before : List TripleConstraint) : ∃ fs after, s.ExpandsAll members before fs after := by
  induction members generalizing before with
  | nil => exact ⟨[], before, .nil⟩
  | cons e es ih =>
    obtain ⟨f, between, hf⟩ := h e List.mem_cons_self before
    obtain ⟨fs, after, hfs⟩ := ih (fun e' he' => h e' (List.mem_cons_of_mem _ he')) between
    exact ⟨f :: fs, after, .cons hf hfs⟩

/-- Without recursion, every triple expression stands for a formula. -/
theorem Acyclic.exists_expands {s : Schema} (h : s.Acyclic) (te : TripleExpr)
    (before : List TripleConstraint) : ∃ f after, s.Expands te before f after := by
  induction te using h.tripleInduction generalizing before with
  | _ te ih =>
    induction te using TripleExpr.memberInduction generalizing before with
    | eachOf g ihg =>
      have hmembers : ∀ e ∈ g.members, ∀ before, ∃ f after, s.Expands e before f after := by
        intro e he before
        exact ihg e he (fun label hl => ih label (TripleGroup.labels_of_member he hl)) before
      obtain ⟨fs, after, hfs⟩ := exists_expandsAll hmembers before
      exact ⟨.all fs, after, .eachOf hfs⟩
    | oneOf g ihg =>
      have hmembers : ∀ e ∈ g.members, ∀ before, ∃ f after, s.Expands e before f after := by
        intro e he before
        exact ihg e he (fun label hl => ih label (TripleGroup.labels_of_member he hl)) before
      obtain ⟨fs, after, hfs⟩ := exists_expandsAll hmembers before
      exact ⟨.one fs, after, .oneOf hfs⟩
    | triple t => exact ⟨.slot before.length, before ++ [t], .triple⟩
    | ref label =>
      cases hl : s.tripleExpression? label with
      | none => exact ⟨.value .unsatisfied, before, .unknown hl⟩
      | some te' =>
        obtain ⟨f, after, hf⟩ := ih label (List.mem_singleton.2 rfl) te' hl before
        exact ⟨f, after, .known hl hf⟩

/-- Without recursion, every shape stands for a formula, and one without a triple expression for the
empty one. -/
theorem Acyclic.exists_expandsTo {s : Schema} (h : s.Acyclic) (expression : Option TripleExpr) :
    ∃ f slots, s.ExpandsTo expression f slots := by
  cases expression with
  | none => exact ⟨.value .satisfied, [], rfl, rfl⟩
  | some te => exact h.exists_expands te []

end Schema

namespace Setting

/-- The arcs around a node. -/
def arcsAround (w : Setting) (node : Term) : List Arc :=
  outgoingArcs w.listing node ++ incomingArcs w.listing node

/-- Does a node conform to an expression? -/
inductive Conforms (w : Setting) : ShapeExpr → Term → Bool → Prop
  | or_true {operands : List ShapeExpr} {e : ShapeExpr} {node : Term} (he : e ∈ operands)
      (h : Conforms w e node true) : Conforms w (.or operands) node true
  | or_false {operands : List ShapeExpr} {node : Term}
      (h : ∀ e ∈ operands, Conforms w e node false) : Conforms w (.or operands) node false
  | and_true {operands : List ShapeExpr} {node : Term}
      (h : ∀ e ∈ operands, Conforms w e node true) : Conforms w (.and operands) node true
  | and_false {operands : List ShapeExpr} {e : ShapeExpr} {node : Term} (he : e ∈ operands)
      (h : Conforms w e node false) : Conforms w (.and operands) node false
  | not {operand : ShapeExpr} {node : Term} {b : Bool} (h : Conforms w operand node b) :
      Conforms w (.not operand) node !b
  | constraint {c : NodeConstraint} {node : Term} {b : Bool}
      (h : w.constraintAnswer c node = .ok b) : Conforms w (.node c) node b
  | unknown {label : Label} {node : Term} (hl : w.schema.find? label = none) :
      Conforms w (.ref label) node false
  | known {label : Label} {node : Term} {index : Nat} {d : Declaration} {b : Bool}
      (hl : w.schema.find? label = some (index, d)) (h : Conforms w d.expression node b) :
      Conforms w (.ref label) node b
  | shape {shape : Shape} {node : Term} {f : Formula} {slots : List TripleConstraint}
      {holds : ShapeExpr → Term → Bool} {b : Bool}
      (hf : w.schema.ExpandsTo shape.expression f slots)
      (hvalues : ∀ arc ∈ w.arcsAround node, ∀ t ∈ slots, t.concerns arc → ∀ v, t.value = some v →
        Conforms w v arc.neighbour (holds v arc.neighbour))
      (hb : b = true ↔ ∃ shares, w.Sharing holds shape slots node shares ∧
        (f.evaluate slots (countsOf slots.length (shares.map (·.2)))).holds = true) :
      Conforms w (.shape shape) node b

variable {w : Setting}

/-- What the answers about value expressions are decides what a slot admits. -/
theorem admits_congr {holds holds' : ShapeExpr → Term → Bool} {t : TripleConstraint} {arc : Arc}
    (h : t.concerns arc → ∀ v, t.value = some v →
      holds v arc.neighbour = holds' v arc.neighbour) :
    t.admits holds arc = t.admits holds' arc := by
  unfold TripleConstraint.admits
  by_cases hc : t.concerns arc
  · rw [hc]
    cases hv : t.value with
    | none => rfl
    | some v => exact h hc v hv
  · simp [hc]

/-- There is one answer at most. -/
theorem Conforms.unique {e : ShapeExpr} {node : Term} {b b' : Bool} (h : w.Conforms e node b)
    (h' : w.Conforms e node b') : b = b' := by
  induction h generalizing b' with
  | or_true he _ ih =>
    cases h' with
    | or_true _ _ => rfl
    | or_false h' => exact ih (h' _ he)
  | or_false _ ih =>
    cases h' with
    | or_true he h' => exact ih _ he h'
    | or_false _ => rfl
  | and_true _ ih =>
    cases h' with
    | and_true _ => rfl
    | and_false he h' => exact ih _ he h'
  | and_false he _ ih =>
    cases h' with
    | and_true h' => exact ih (h' _ he)
    | and_false _ _ => rfl
  | not _ ih =>
    cases h' with
    | not h' => rw [ih h']
  | constraint h =>
    cases h' with
    | constraint h' => exact Except.ok.inj (h.symm.trans h')
  | unknown hl =>
    cases h' with
    | unknown _ => rfl
    | known hl' _ =>
      rw [hl] at hl'
      cases hl'
  | known hl _ ih =>
    cases h' with
    | unknown hl' =>
      rw [hl] at hl'
      cases hl'
    | known hl' h' =>
      rw [hl] at hl'
      cases hl'
      exact ih h'
  | @shape shape node f slots holds b hf _ hb ih =>
    cases h' with
    | @shape _ _ _ _ holds' _ hf' hvalues' hb' =>
      -- The slots are the same, and by induction both functions agree on what the slots ask for.
      obtain ⟨rfl, rfl⟩ := hf.unique hf'
      have hadmits : ∀ arc ∈ w.arcsAround node, ∀ t ∈ slots,
          t.admits holds arc = t.admits holds' arc := by
        intro arc harc t ht
        refine admits_congr fun hc v hv => ?_
        exact ih arc harc t ht hc v hv (hvalues' arc harc t ht hc v hv)
      rw [Bool.eq_iff_iff, hb, hb']
      constructor
      · rintro ⟨shares, hs, hholds⟩
        exact ⟨shares, hs.congr hadmits, hholds⟩
      · rintro ⟨shares, hs, hholds⟩
        exact ⟨shares, hs.congr fun arc harc t ht => (hadmits arc harc t ht).symm, hholds⟩

end Setting

/-! ## Supported features -/

/-- A triple expression has no semantic actions, and its groups stand once. -/
inductive TripleExpr.Plain : TripleExpr → Prop
  | eachOf {g : TripleGroup} (hc : ∀ c, g.cardinality = some c → c = .one) (ha : g.acts = [])
      (hm : ∀ e ∈ g.members, Plain e) : Plain (.eachOf g)
  | oneOf {g : TripleGroup} (hc : ∀ c, g.cardinality = some c → c = .one) (ha : g.acts = [])
      (hm : ∀ e ∈ g.members, Plain e) : Plain (.oneOf g)
  | triple {t : TripleConstraint} (ha : t.acts = []) : Plain (.triple t)
  | ref {label : Label} : Plain (.ref label)

/-- An expression asks at its top for nothing that is not supported: it is not defined elsewhere,
its patterns can be used, and a shape has no actions, extends nothing and restricts nothing. -/
def ShapeExpr.Plain (limit : Nat) : ShapeExpr → Prop
  | .node c => ∀ facet, StringFacet.pattern facet ∈ c.strings →
    ∃ regex, Pattern.compileWithin limit facet = .ok regex
  | .shape s => s.acts = [] ∧ s.extended = [] ∧ s.restricted = [] ∧
    ∀ te, s.expression = some te → te.Plain
  | .external => False
  | _ => True

/-- An expression asks nowhere for what is not supported. -/
def ShapeExpr.Supported (limit : Nat) (e : ShapeExpr) : Prop := ∀ p ∈ e.parts, p.Plain limit

/-- A schema asks nowhere for what is not supported. -/
structure Schema.Supported (limit : Nat) (s : Schema) : Prop where
  imports : s.imports = []
  startActs : s.startActs = []
  concrete : ∀ d ∈ s.declarations, d.isAbstract = false
  expressions : ∀ e ∈ s.expressions, e.Plain limit
  tripleExpressions : ∀ label te, s.tripleExpression? label = some te → te.Plain

/-- A constraint whose patterns can be used has an answer. -/
theorem Setting.exists_constraintAnswer {w : Setting} {c : NodeConstraint}
    (h : (ShapeExpr.node c).Plain w.limits.maxRegexLength) (node : Term) :
    ∃ b, w.constraintAnswer c node = .ok b :=
  NodeConstraint.exists_evaluate h node []

/-! ## Every question has an answer -/

namespace Setting

variable {w : Setting}

open scoped Classical in
/-- Which nodes conform to which expressions. -/
noncomputable def conforming (w : Setting) : ShapeExpr → Term → Bool :=
  fun e node => decide (w.Conforms e node true)

/-- The meaning of an expression at a node is unique, so the function that is chosen agrees with
it. -/
theorem Conforms.conforming_eq {e : ShapeExpr} {node : Term} {b : Bool}
    (h : w.Conforms e node b) : w.conforming e node = b := by
  classical
  unfold conforming
  cases b with
  | true => exact decide_eq_true h
  | false => exact decide_eq_false fun htrue => Bool.false_ne_true (h.unique htrue)

/-- Where an expression has a meaning at a node, the function that is chosen gives it. -/
theorem conforms_conforming {e : ShapeExpr} {node : Term} (h : ∃ b, w.Conforms e node b) :
    w.Conforms e node (w.conforming e node) := by
  obtain ⟨b, hb⟩ := h
  rwa [hb.conforming_eq]

/-- What is supported has an answer, if there is no recursion. -/
theorem exists_conforms (h : w.schema.Acyclic) {all : List ShapeExpr} (hall : w.schema.Closed all)
    (hplain : ∀ p ∈ all, p.Plain w.limits.maxRegexLength) {e : ShapeExpr} (he : e ∈ all)
    (node : Term) : ∃ b, w.Conforms e node b := by
  classical
  -- The induction follows labels too, which ends since the schema does not refer to itself.
  induction e using h.shapeInduction generalizing node with
  | _ e ihe ihd =>
    have hchild : ∀ c ∈ e.children, ∀ node, ∃ b, w.Conforms c node b :=
      fun c hc => ihe c (.child hc) (hall.embeds e c (.child hc) he)
    cases e with
    | or operands =>
      by_cases htrue : ∃ e ∈ operands, w.Conforms e node true
      · obtain ⟨e, hmem, htrue⟩ := htrue
        exact ⟨true, .or_true hmem htrue⟩
      · refine ⟨false, .or_false fun e hmem => ?_⟩
        obtain ⟨b, hb⟩ := hchild e hmem node
        cases b with
        | false => exact hb
        | true => exact absurd ⟨e, hmem, hb⟩ htrue
    | and operands =>
      by_cases hfalse : ∃ e ∈ operands, w.Conforms e node false
      · obtain ⟨e, hmem, hfalse⟩ := hfalse
        exact ⟨false, .and_false hmem hfalse⟩
      · refine ⟨true, .and_true fun e hmem => ?_⟩
        obtain ⟨b, hb⟩ := hchild e hmem node
        cases b with
        | false => exact absurd ⟨e, hmem, hb⟩ hfalse
        | true => exact hb
    | not operand =>
      obtain ⟨b, hb⟩ := hchild operand (List.mem_singleton.2 rfl) node
      exact ⟨!b, .not hb⟩
    | node c =>
      obtain ⟨b, hb⟩ := exists_constraintAnswer (hplain _ he) node
      exact ⟨b, .constraint hb⟩
    | shape shape =>
      obtain ⟨f, slots, hf⟩ := h.exists_expandsTo shape.expression
      have hvalues : ∀ arc ∈ w.arcsAround node, ∀ t ∈ slots, t.concerns arc → ∀ v,
          t.value = some v → w.Conforms v arc.neighbour (w.conforming v arc.neighbour) := by
        intro arc _ t ht _ v hv
        have hemb := hf.embeds ht hv
        exact conforms_conforming (ihe v hemb (hall.embeds _ v hemb he) arc.neighbour)
      exact ⟨_, .shape hf hvalues decide_eq_true_iff⟩
    | external => exact (hplain _ he).elim
    | ref label =>
      cases hl : w.schema.find? label with
      | none => exact ⟨false, .unknown hl⟩
      | some entry =>
        obtain ⟨index, d⟩ := entry
        have hd := hall.declared d (Schema.mem_of_find? hl).1
        obtain ⟨b, hb⟩ := ihd label index d rfl hl hd node
        exact ⟨b, .known hl hb⟩

end Setting

end ShEx
