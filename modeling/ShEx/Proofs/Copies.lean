import ShEx.Proofs.Chains
import ShEx.Proofs.References
import ShEx.Proofs.Slots

/-!
# Copies of labelled triple expressions

A triple expression with a label can be reused by a reference, or by writing it down once more in
the place of the reference.  It is the same for a session (`Session.validateExpr_copied`): the
result or failure and the state behind it do not change, however many references are replaced, in
whichever shapes inside the expression, and again in what they were replaced by
(`ShapeExpr.Copied`).

What is compiled inside a label that is being expanded is compiled there as it is anywhere else
(`Schema.compileTriple_eq_of_underway`).  So a label may be used as often as one likes, as long as
it is not used inside itself.
-/

set_option autoImplicit false

namespace ShEx

open ShEx.Rdf

/-- A label has a triple expression that can be reused: it stands for something, and no label that
it reveals reveals itself. -/
structure Schema.Reuses (s : Schema) (label : Label) (te : TripleExpr) : Prop where
  stored : s.tripleExpression? label = some te
  resolves : ∃ target, s.resolveTriple? (.ref label) = some target
  acyclic : ∀ l, s.Reveals (.ref label) (.ref l) → ¬s.Loops l

mutual

/-- A shape expression in which references to triple expressions are replaced by what is stored with
their labels, in any number of places. -/
inductive ShapeExpr.Copied (s : Schema) : ShapeExpr → ShapeExpr → Prop
  | same (e : ShapeExpr) : ShapeExpr.Copied s e e
  | or {es es' : List ShapeExpr} (h : List.Forall₂ (ShapeExpr.Copied s) es es') :
      ShapeExpr.Copied s (.or es) (.or es')
  | and {es es' : List ShapeExpr} (h : List.Forall₂ (ShapeExpr.Copied s) es es') :
      ShapeExpr.Copied s (.and es) (.and es')
  | not {e e' : ShapeExpr} (h : ShapeExpr.Copied s e e') : ShapeExpr.Copied s (.not e) (.not e')
  | shape {shape : Shape} {expression : Option TripleExpr}
      (h : Option.Rel (TripleExpr.Copied s) shape.expression expression) :
      ShapeExpr.Copied s (.shape shape) (.shape { shape with expression := expression })

/-- A triple expression in which references are replaced so, also inside value expressions. -/
inductive TripleExpr.Copied (s : Schema) : TripleExpr → TripleExpr → Prop
  | same (te : TripleExpr) : TripleExpr.Copied s te te
  | eachOf {g : TripleGroup} {members : List TripleExpr}
      (h : List.Forall₂ (TripleExpr.Copied s) g.members members) :
      TripleExpr.Copied s (.eachOf g) (.eachOf { g with members := members })
  | oneOf {g : TripleGroup} {members : List TripleExpr}
      (h : List.Forall₂ (TripleExpr.Copied s) g.members members) :
      TripleExpr.Copied s (.oneOf g) (.oneOf { g with members := members })
  | triple {t : TripleConstraint} {value : Option ShapeExpr}
      (h : Option.Rel (ShapeExpr.Copied s) t.value value) :
      TripleExpr.Copied s (.triple t) (.triple { t with value := value })
  | copy {label : Label} {te : TripleExpr} (h : s.Reuses label te) :
      TripleExpr.Copied s (.ref label) te

end

namespace Schema

variable {s : Schema} {te te' target : TripleExpr}

/-! ## Labels that are being expanded -/

/-- Labels are being expanded around a triple expression that does not come back to them, and there
is room for all others. -/
structure Underway (s : Schema) (n : Nat) (expanding : List Label) (te : TripleExpr) : Prop where
  room : s.Room n expanding
  fresh : ∀ l ∈ expanding, ¬s.Reveals te (.ref l)

/-- At the top of a triple expression, nothing is being expanded. -/
theorem underway_nil (s : Schema) (te : TripleExpr) :
    s.Underway (s.tripleExpressions.length + 1) [] te := ⟨.start (Nat.le_refl _), nofun⟩

namespace Underway

variable {n : Nat} {expanding : List Label} {label : Label}

/-- A label that is revealed is not being expanded, as the triple expression does not come back to
those that are. -/
theorem not_contains (h : s.Underway n expanding te) (hl : s.Reveals te (.ref label)) :
    expanding.contains label = false :=
  Bool.eq_false_iff.2 fun hmem => h.fresh label (List.contains_iff_mem.1 hmem) hl

/-- A label that does not come back to itself is expanded. -/
theorem expand (h : s.Underway (n + 1) expanding te) (hl : s.Reveals te (.ref label))
    (hloops : ¬s.Loops label) (hr : s.resolveTriple? (.ref label) = some target) :
    s.Underway n (label :: expanding) target := by
  have hopens := transGen_of_resolveTriple? hr
  refine ⟨h.room.pass (fun hmem => h.fresh label hmem hl) (known_of_resolveTriple? hr), ?_⟩
  refine List.forall_mem_cons.2 ⟨fun hback => hloops (hopens.trans_left hback), ?_⟩
  exact fun l hmem hreveals =>
    h.fresh l hmem (hl.trans (hopens.to_reflTransGen.trans hreveals))

end Underway

/-- A triple expression is compiled to the same, whichever labels are being expanded around it. -/
theorem compileTriple_eq_of_underway {n m : Nat} {expanding expanding' : List Label}
    (hacyclic : ∀ l, s.Reveals te (.ref l) → ¬s.Loops l) (h : s.Underway n expanding te)
    (h' : s.Underway m expanding' te) (slots : List TripleConstraint) :
    s.compileTriple n expanding te slots = s.compileTriple m expanding' te slots := by
  induction n generalizing m expanding expanding' te slots with
  | zero =>
    obtain ⟨k, hk⟩ := h.room.exists_succ
    cases hk
  | succ n ih =>
    obtain ⟨m, rfl⟩ := h'.room.exists_succ
    refine compileWith_congr fun label hlabel slots => ?_
    have hl : s.Reveals te (.ref label) := reveals_label hlabel
    simp only [h.not_contains hl, h'.not_contains hl, Bool.false_eq_true, if_false]
    cases hr : s.resolveTriple? (.ref label) with
    | none => rfl
    | some target =>
      have htarget := (transGen_of_resolveTriple? hr).to_reflTransGen
      have hloops := hacyclic label hl
      exact ih (fun l hreveals => hacyclic l (hl.trans (htarget.trans hreveals)))
        (h.expand hl hloops hr) (h'.expand hl hloops hr) slots

/-- A triple expression is compiled to what it stands for. -/
theorem compileTriple_eq_of_resolveTriple? (hr : s.resolveTriple? te = some target)
    (hacyclic : ∀ l, s.Reveals te (.ref l) → ¬s.Loops l) (slots : List TripleConstraint) :
    s.compileTriple (s.tripleExpressions.length + 1) [] te slots =
      s.compileTriple (s.tripleExpressions.length + 1) [] target slots := by
  cases te with
  | ref label =>
    have htarget := (transGen_of_resolveTriple? hr).to_reflTransGen
    have hexpand := (s.underway_nil (.ref label)).expand .refl (hacyclic label .refl) hr
    have heq := compileTriple_eq_of_underway
      (fun l hreveals => hacyclic l (htarget.trans hreveals)) hexpand (s.underway_nil target) slots
    rw [← heq, compileTriple, TripleExpr.compileWith, List.contains_nil,
      if_neg Bool.false_ne_true, hr]
  | _ =>
    cases hr
    rfl

/-- A reference is compiled as what it stands for is: no label in it comes back to the one that is
followed. -/
theorem Reuses.compileTriple_eq {label : Label} (h : s.Reuses label te)
    (slots : List TripleConstraint) :
    s.compileTriple (s.tripleExpressions.length + 1) [] (.ref label) slots =
      s.compileTriple (s.tripleExpressions.length + 1) [] te slots := by
  obtain ⟨target, hr⟩ := h.resolves
  have hte : s.resolveTriple? te = some target := (resolveTriple?_ref h.stored).symm.trans hr
  have hopen : s.Opens (.ref label) te := .ref h.stored
  rw [compileTriple_eq_of_resolveTriple? hr h.acyclic,
    compileTriple_eq_of_resolveTriple? hte fun l hl => h.acyclic l (.head hopen hl)]

/-- What compiles can be reused. -/
theorem Reuses.of_compile {label : Label} (hl : s.tripleExpression? label = some te)
    {compiled : Compiled} (hc : s.compile (some (.ref label)) = .ok compiled) :
    s.Reuses label te := by
  have hclear : s.Clear (.ref label) := clear_of_compile hc
  refine ⟨hl, ?_, fun l hreveals hloops => hclear _ _ hreveals (.loops hloops)⟩
  cases hr : s.resolveTriple? (.ref label) with
  | some target => exact ⟨target, rfl⟩
  | none =>
    have hknown : s.tripleExpression? label ≠ none := hl.symm ▸ Option.some_ne_none te
    obtain ⟨e, feature, hreveals, hobstructs, -⟩ := obstructed_of_resolveTriple? hknown hr
    exact (hclear e feature hreveals hobstructs).elim

/-! ## Compiling copies -/

/-- A slot in whose value expression references are replaced. -/
abbrev CopiedSlot (s : Schema) (t t' : TripleConstraint) : Prop :=
  (TripleExpr.triple t).Copied s (.triple t')

/-- Slots with copies in their value expressions ask for the same arcs in the same numbers. -/
theorem CopiedSlot.alike {t t' : TripleConstraint} (h : s.CopiedSlot t t') : t.Alike t' := by
  cases h <;> exact ⟨rfl, rfl, rfl⟩

/-- A triple expression is compiled to slots of which each is a copy of itself. -/
theorem compileTriple_self (s : Schema) (n : Nat) (expanding : List Label) (te : TripleExpr) :
    CompilesAlike s.CopiedSlot (s.compileTriple n expanding te)
      (s.compileTriple n expanding te) := by
  have hsame : ∀ t, s.CopiedSlot t t := fun t => .same (.triple t)
  induction n generalizing expanding te with
  | zero => exact compileWith_self hsame (fun _ => compilesAlike_error _) te
  | succ n ih =>
    refine compileWith_self hsame (fun label => ?_) te
    cases expanding.contains label with
    | true => exact compilesAlike_error _
    | false =>
      cases s.resolveTriple? (.ref label) with
      | some target => exact ih _ _
      | none =>
        cases s.tripleExpression? label with
        | some _ => exact compilesAlike_error _
        | none => exact fun _ _ hb => .ok _ hb

/-- Copies are compiled to the formula of what they are copies of, if labels are expanded to that of
what is stored with them. -/
theorem compileWith_copied {expand : Label → List TripleConstraint → Except Failure Compiled}
    (hself : ∀ te : TripleExpr,
      CompilesAlike s.CopiedSlot (te.compileWith expand) (te.compileWith expand))
    (hexpand : ∀ label te, s.Reuses label te →
      ∀ slots, expand label slots = te.compileWith expand slots)
    (h : te.Copied s te') :
    CompilesAlike s.CopiedSlot (te.compileWith expand) (te'.compileWith expand) := by
  induction te using TripleExpr.memberInduction generalizing te' with
  | eachOf g ih =>
    cases h with
    | same => exact hself _
    | eachOf hmembers => exact compileEachOf_alike hmembers fun e he e' => ih e he
  | oneOf g ih =>
    cases h with
    | same => exact hself _
    | oneOf hmembers => exact compileOneOf_alike hmembers fun e he e' => ih e he
  | triple t =>
    cases h with
    | same => exact hself _
    | triple hvalue => exact compileTripleConstraint_alike (.triple hvalue)
  | ref label =>
    cases h with
    | same => exact hself _
    | copy hreuses =>
      intro before before' hb
      rw [← hexpand label te' hreuses]
      exact hself (.ref label) before before' hb

/-- The triple expression of a shape is compiled as its copy is, but for value expressions. -/
theorem compile_copied {expression expression' : Option TripleExpr}
    (h : Option.Rel (TripleExpr.Copied s) expression expression') :
    SameUpTo s.CopiedSlot (s.compile expression) (s.compile expression') := by
  cases h with
  | none => exact .ok _ .nil
  | some h =>
    refine compileWith_copied ?_ ?_ h _ _ .nil
    · exact s.compileTriple_self (s.tripleExpressions.length + 1) []
    · exact fun label te hreuses => hreuses.compileTriple_eq

end Schema

/-! ## Evaluating copies -/

namespace Setting

variable {w : Setting} {eval : Evaluator}

section Evaluator

variable (heval : ∀ e e', e.Copied w.schema e' → eval e' = eval e)

include heval

/-- Operands may be copies if the answers about copies are the same: one of them is enough. -/
theorem evaluateAny_copied {es es' : List ShapeExpr}
    (h : List.Forall₂ (ShapeExpr.Copied w.schema) es es') (node : Term) :
    evaluateAny eval node es' = evaluateAny eval node es := by
  induction h with
  | nil => rfl
  | cons he _ ih => rw [evaluateAny, evaluateAny, heval _ _ he, ih]

/-- Operands may be copies if the answers about copies are the same: all of them are asked for. -/
theorem evaluateAll_copied {es es' : List ShapeExpr}
    (h : List.Forall₂ (ShapeExpr.Copied w.schema) es es') (node : Term) :
    evaluateAll eval node es' = evaluateAll eval node es := by
  induction h with
  | nil => rfl
  | cons he _ ih => rw [evaluateAll, evaluateAll, heval _ _ he, ih]

/-- Copied slots are eligible for an arc under the same numbers, because their value expressions are
answered alike. -/
theorem eligibleSlots_copied {slots slots' : List TripleConstraint}
    (h : List.Forall₂ w.schema.CopiedSlot slots slots') (arc : Arc) (i : Nat) :
    eligibleSlots eval arc i slots' = eligibleSlots eval arc i slots := by
  induction h generalizing i with
  | nil => rfl
  | @cons t t' _ _ ht _ ih =>
    rw [eligibleSlots, eligibleSlots, concerns_alike ht.alike, ih]
    cases ht with
    | same => rfl
    | triple hvalue =>
      obtain ⟨predicate, inverse, value, cardinality, acts⟩ := t
      cases hvalue with
      | none => rfl
      | some he =>
        dsimp only
        rw [heval _ _ he]

/-- The options of every arc are the same for copied slots. -/
theorem arcOptions_copied {slots slots' : List TripleConstraint}
    (h : List.Forall₂ w.schema.CopiedSlot slots slots') (shape : Shape)
    (expression : Option TripleExpr) (arcs : List Arc) :
    arcOptions eval { shape with expression := expression } slots' arcs =
      arcOptions eval shape slots arcs := by
  have halike := h.imp fun _ _ => Schema.CopiedSlot.alike
  induction arcs with
  | nil => rfl
  | cons arc rest ih =>
    rw [arcOptions, arcOptions, eligibleSlots_copied heval h, allowsExtra_alike halike, ih]

/-- A shape is answered as its copy is: it is compiled alike, and its arcs have the same options. -/
theorem evaluateShape_copied {shape : Shape} {expression : Option TripleExpr}
    (h : Option.Rel (TripleExpr.Copied w.schema) shape.expression expression) (node : Term) :
    w.evaluateShape eval { shape with expression := expression } node =
      w.evaluateShape eval shape node := by
  have hcompile := Schema.compile_copied h
  unfold evaluateShape
  dsimp only
  generalize w.schema.compile shape.expression = compiled,
    w.schema.compile expression = compiled' at hcompile
  cases hcompile with
  | error failure => rfl
  | @ok f slots slots' hslots =>
    have halike := hslots.imp fun _ _ => Schema.CopiedSlot.alike
    have harcs : w.arcsOf slots' node = w.arcsOf slots node := by
      rw [arcsOf, arcsOf, any_inverse_alike halike]
    simp only [Evaluation.ofExcept, pure_bind, harcs, arcOptions_copied heval hslots,
      decideAssignment_alike halike]

end Evaluator

/-- Copies are evaluated as what they are copies of, with the same nesting. -/
theorem evaluate_copied {e e' : ShapeExpr} (h : e.Copied w.schema e') (n : Nat) :
    w.evaluate n e' = w.evaluate n e := by
  induction n generalizing e e' with
  | zero => rfl
  | succ n ih =>
    funext node
    cases h with
    | same => rfl
    | or h => exact evaluateAny_copied (fun _ _ => ih) h node
    | and h => exact evaluateAll_copied (fun _ _ => ih) h node
    | not h => rw [evaluate, evaluate, step, step, ih h]
    | shape h => exact evaluateShape_copied (fun _ _ => ih) h node

end Setting

/-- A session responds to a request for an expression as it does when references to triple
expressions in it are replaced by what is stored with their labels: with the same result or failure,
and with the same state behind it, at every node and from every state.

It may be any references at any depth of the expression, several to one label among them, and
references that come in with what others are replaced by. -/
theorem Session.validateExpr_copied {w : Setting} {e e' : ShapeExpr}
    (h : Relation.ReflTransGen (ShapeExpr.Copied w.schema) e e') (s : Session) (node : Term) :
    s.validateExpr w e' node = s.validateExpr w e node := by
  have hevaluate : ∀ n, w.evaluate n e' = w.evaluate n e := by
    intro n
    induction h with
    | refl => rfl
    | tail _ hcopied ih => rw [Setting.evaluate_copied hcopied, ih]
  refine Option.ext fun result => ?_
  obtain ⟨r, t⟩ := result
  rw [validateExpr_eq_some_iff, validateExpr_eq_some_iff]
  unfold Setting.Returns
  simp only [hevaluate]

/-- A label with a reference, a label with a group and a label with a triple constraint, and a node
with two arcs `p` and `q` each. -/
def Setting.reusing : Setting where
  schema :=
    ((Schema.empty.addTripleExpression (.iri ⟨"T"⟩) (.ref (.iri ⟨"U"⟩))).addTripleExpression
      (.iri ⟨"U"⟩) (.eachOf ⟨[.triple ⟨⟨"p"⟩, false, none, .one, []⟩, .ref (.iri ⟨"V"⟩)], none,
        []⟩)).addTripleExpression
      (.iri ⟨"V"⟩) (.triple (.to ⟨"q"⟩ (.node ⟨some .iri, none, [], [], [], none⟩)))
  graph := .ofList [⟨.iri ⟨"n"⟩, ⟨"p"⟩, .iri ⟨"a"⟩⟩, ⟨.iri ⟨"n"⟩, ⟨"p"⟩, .iri ⟨"b"⟩⟩,
    ⟨.iri ⟨"n"⟩, ⟨"q"⟩, .iri ⟨"a"⟩⟩, ⟨.iri ⟨"n"⟩, ⟨"q"⟩, .iri ⟨"b"⟩⟩,
    ⟨.iri ⟨"n"⟩, ⟨"r"⟩, .iri ⟨"a"⟩⟩, ⟨.iri ⟨"a"⟩, ⟨"q"⟩, .iri ⟨"n"⟩⟩]
  listing := Graph.asInserted _
  limits := .standard

/-- A shape of two triple expressions, and of one for the other end of an arc `r`. -/
def ShapeExpr.reusing (first second further : TripleExpr) : ShapeExpr :=
  .shape ⟨false, [], some (.eachOf ⟨[first, second,
    .triple (.to ⟨"r"⟩ (.shape ⟨false, [], some further, [], [], []⟩))], none, []⟩), [], [], []⟩

/-- The shape is copied where its three triple expressions are, the one behind the arc `r`
included. -/
theorem ShapeExpr.copied_reusing {s : Schema}
    {first first' second second' further further' : TripleExpr}
    (hfirst : first.Copied s first') (hsecond : second.Copied s second')
    (hfurther : further.Copied s further') :
    (reusing first second further).Copied s (reusing first' second' further') :=
  .shape (.some (.eachOf (.cons hfirst (.cons hsecond
    (.cons (.triple (.some (.shape (.some hfurther)))) .nil)))))

/-- References to one label in two places and in a value expression, and then those in what they
are replaced by. -/
theorem Session.validateExpr_copied_reusing :
    initial.validateExpr .reusing
      (.reusing
        (.eachOf ⟨[.triple ⟨⟨"p"⟩, false, none, .one, []⟩,
          .triple (.to ⟨"q"⟩ (.node ⟨some .iri, none, [], [], [], some 0⟩))], none, []⟩)
        (.ref (.iri ⟨"U"⟩))
        (.triple (.to ⟨"q"⟩ (.node ⟨some .iri, none, [], [], [], some 0⟩)))) (.iri ⟨"n"⟩) =
      initial.validateExpr .reusing
        (.reusing (.ref (.iri ⟨"T"⟩)) (.ref (.iri ⟨"T"⟩)) (.ref (.iri ⟨"V"⟩))) (.iri ⟨"n"⟩) ∧
    (initial.validateExpr .reusing
      (.reusing (.ref (.iri ⟨"T"⟩)) (.ref (.iri ⟨"T"⟩)) (.ref (.iri ⟨"V"⟩))) (.iri ⟨"n"⟩)).map
        (·.1) = some (.ok true) := by
  have hT : Setting.reusing.schema.Reuses (.iri ⟨"T"⟩) (.ref (.iri ⟨"U"⟩)) := .of_compile rfl rfl
  have hU : Setting.reusing.schema.Reuses (.iri ⟨"U"⟩) (.eachOf ⟨[
      .triple ⟨⟨"p"⟩, false, none, .one, []⟩, .ref (.iri ⟨"V"⟩)], none, []⟩) := .of_compile rfl rfl
  have hV : Setting.reusing.schema.Reuses (.iri ⟨"V"⟩)
      (.triple (.to ⟨"q"⟩ (.node ⟨some .iri, none, [], [], [], some 0⟩))) := .of_compile rfl rfl
  refine ⟨validateExpr_copied ?_ initial (.iri ⟨"n"⟩), rfl⟩
  refine .head (ShapeExpr.copied_reusing (.copy hT) (.copy hT) (.copy hV)) ?_
  refine .head (ShapeExpr.copied_reusing (.copy hU) (.same _) (.same _)) ?_
  refine .single (ShapeExpr.copied_reusing ?_ (.same _) (.same _))
  exact .eachOf (.cons (.same _) (.cons (.copy hV) .nil))

end ShEx
