import ShEx.Proofs.Compilation
import ShEx.Proofs.Conformance
import ShEx.Proofs.Provision

/-!
# Where there is no answer

Where nothing is asked for that is not supported, and no label reaches itself, there is little left
that can keep a question from its answer (`Setting.Excuse`): declarations that stand inside each
other too deep, too many ways to share out arcs, and a labelled triple expression whose chain of
references ends at an unknown label.

An inquiry `Fails` by itself or because a question fails.  The inquiries of connectives and arcs do
not fail by themselves; that of a shape fails where its triple expression is not compiled
(`Schema.compile_error`) or its search is refused.  Where anything may be asked for, what fails by
itself asks for a feature that is not supported or has too many ways to share out arcs
(`Setting.fails_inquiry`), and a constraint fails only if a pattern cannot be used
(`NodeConstraint.evaluate_error`).
-/

set_option autoImplicit false

namespace ShEx

open ShEx.Rdf

variable {α β : Type}

/-! ## Failures of inquiries -/

namespace Inquiry

/-- An inquiry fails by itself after some answers to its questions. -/
def Fails : Inquiry α → Failure → Prop
  | .done _, _ => False
  | .failed failure, failure' => failure' = failure
  | .ask _ _ next, failure' => ∃ b, (next b).Fails failure'

/-- Two inquiries one after the other fail where one of them does. -/
theorem fails_bind {q : Inquiry α} {f : α → Inquiry β} {failure : Failure}
    (h : (q >>= f).Fails failure) : q.Fails failure ∨ ∃ a, (f a).Fails failure := by
  induction q with
  | done a => exact .inr ⟨a, h⟩
  | failed failure' => exact .inl h
  | ask e node next ih =>
    obtain ⟨b, h⟩ := h
    exact (ih b h).imp (fun h => ⟨b, h⟩) id

/-- The answers that a partial function gives. -/
def AnswersOf (eval : ShapeExpr → Term → Option (Except Failure Bool)) (e : ShapeExpr) (node : Term)
    (b : Bool) : Prop := eval e node = some (.ok b)

/-- A question that an inquiry comes to by some answers is one that it mentions. -/
theorem ComesTo.mentions {A : ShapeExpr → Term → Bool → Prop} {q : Inquiry α} {e : ShapeExpr}
    {node : Term} (h : q.ComesTo A e node) : q.Mentions e node := by
  induction q with
  | done a => exact h
  | failed failure => exact h
  | ask e' node' next ih =>
    rcases h with h | ⟨b, -, h⟩
    · exact .inl h
    · exact .inr ⟨b, ih b h⟩

/-- An inquiry that ends with a failure fails by itself, or comes to a question that fails. -/
theorem failure_of_resolve {eval : ShapeExpr → Term → Option (Except Failure Bool)} {q : Inquiry α}
    {failure : Failure} (h : q.resolve eval = some (.error failure)) :
    q.Fails failure ∨ ∃ e node, q.ComesTo (AnswersOf eval) e node ∧
      eval e node = some (.error failure) := by
  induction q with
  | done a => cases h
  | failed failure' =>
    cases h
    exact .inl rfl
  | ask e node next ih =>
    rw [resolve] at h
    cases he : eval e node with
    | none =>
      rw [he] at h
      cases h
    | some result =>
      rw [he] at h
      cases result with
      | ok b =>
        rcases ih b h with h | ⟨e', node', hm, h⟩
        · exact .inl ⟨b, h⟩
        · exact .inr ⟨e', node', .inr ⟨b, he, hm⟩, h⟩
      | error failure' =>
        cases h
        exact .inr ⟨e, node, .inl ⟨rfl, rfl⟩, he⟩

/-- A single question does not fail by itself. -/
theorem not_fails_question {e : ShapeExpr} {node : Term} {failure : Failure} :
    ¬(question e node).Fails failure := by
  rintro ⟨b, h⟩
  exact h

/-- An inquiry without questions fails only as what it is. -/
theorem fails_ofExcept {x : Except Failure α} {failure : Failure}
    (h : (ofExcept x).Fails failure) : x = .error failure := by
  cases x with
  | ok a => exact h.elim
  | error failure' =>
    have h : failure = failure' := h
    rw [h]

end Inquiry

/-- The inquiry about the slots of one arc does not fail by itself. -/
theorem not_fails_slotInquiry {arc : Arc} {i : Nat} {slots : List TripleConstraint}
    {failure : Failure} : ¬(slotInquiry arc i slots).Fails failure := by
  induction slots generalizing i with
  | nil => exact id
  | cons t rest ih =>
    intro h
    unfold slotInquiry at h
    split at h
    · rcases Inquiry.fails_bind h with h | ⟨admitted, h⟩
      · unfold valueInquiry at h
        split at h
        · exact h
        · exact Inquiry.not_fails_question h
      · rcases Inquiry.fails_bind h with h | ⟨others, h⟩
        · exact ih h
        · exact h
    · exact ih h

/-- The inquiry about the places of all arcs does not fail by itself. -/
theorem not_fails_arcInquiry {shape : Shape} {slots : List TripleConstraint} {arcs : List Arc}
    {failure : Failure} : ¬(arcInquiry shape slots arcs).Fails failure := by
  induction arcs with
  | nil => exact id
  | cons arc rest ih =>
    intro h
    unfold arcInquiry at h
    rcases Inquiry.fails_bind h with h | ⟨eligible, h⟩
    · exact not_fails_slotInquiry h
    · dsimp only at h
      split at h
      · rcases Inquiry.fails_bind h with h | ⟨items, h⟩
        · exact ih h
        · exact h
      · generalize (if shape.allowsExtra slots arc.predicate then eligible ++ [.extra]
          else eligible) = options at h
        split at h
        · exact h
        · rcases Inquiry.fails_bind h with h | ⟨items, h⟩
          · exact ih h
          · exact h

/-- A disjunction does not fail by itself. -/
theorem not_fails_anyInquiry {node : Term} {operands : List ShapeExpr} {failure : Failure} :
    ¬(anyInquiry node operands).Fails failure := by
  induction operands with
  | nil => exact id
  | cons e rest ih =>
    intro h
    unfold anyInquiry at h
    rcases Inquiry.fails_bind h with h | ⟨b, h⟩
    · exact Inquiry.not_fails_question h
    · cases b
      · exact ih h
      · exact h

/-- A conjunction does not fail by itself. -/
theorem not_fails_allInquiry {node : Term} {operands : List ShapeExpr} {failure : Failure} :
    ¬(allInquiry node operands).Fails failure := by
  induction operands with
  | nil => exact id
  | cons e rest ih =>
    intro h
    unfold allInquiry at h
    rcases Inquiry.fails_bind h with h | ⟨b, h⟩
    · exact Inquiry.not_fails_question h
    · cases b
      · exact h
      · exact ih h

/-- The search for a way to share out arcs fails only because there are too many, and tells how
many. -/
theorem decideAssignment_error {limit : Nat} {f : Formula} {slots : List TripleConstraint}
    {items : List (List Choice)} {failure : Failure}
    (h : decideAssignment limit f slots items = .error failure) :
    ∃ complexity, limit ≤ complexity ∧ failure = .searchSpaceExceeded complexity limit := by
  unfold decideAssignment at h
  dsimp only at h
  split at h
  · next hmany =>
    rw [Bool.and_eq_true, decide_eq_true_eq] at hmany
    cases h
    exact ⟨_, hmany.2, rfl⟩
  · cases h

/-- The inquiry of a shape fails by itself only where the shape is not compiled or its search is
refused. -/
theorem Setting.fails_shapeInquiry {w : Setting} {shape : Shape} {node : Term} {failure : Failure}
    (h : (w.shapeInquiry shape node).Fails failure) :
    w.schema.compileShape shape = .error failure ∨ ∃ complexity,
      w.limits.maxSearchSpace ≤ complexity ∧
        failure = .searchSpaceExceeded complexity w.limits.maxSearchSpace := by
  rw [shapeInquiry_eq] at h
  rcases Inquiry.fails_bind h with h | ⟨compiled, h⟩
  · exact .inl (Inquiry.fails_ofExcept h)
  rcases Inquiry.fails_bind h with h | ⟨options, h⟩
  · exact (not_fails_arcInquiry h).elim
  cases options with
  | none => exact h.elim
  | some items => exact .inr (decideAssignment_error (Inquiry.fails_ofExcept h))

/-- A shape without unsupported parts is its triple expression. -/
theorem Schema.compileShape_of_plain {s : Schema} {shape : Shape} {limit : Nat}
    (h : (ShapeExpr.shape shape).Plain limit) :
    s.compileShape shape = s.compile shape.expression := by
  obtain ⟨hacts, hextended, hrestricted, -⟩ := h
  unfold compileShape
  rw [hacts, hextended, hrestricted]
  rfl

/-! ## Failures of compilation -/

namespace Schema

variable {s : Schema}

/-- The chain of references that begins at a labelled triple expression has no end that is known. -/
def DeadEnd (s : Schema) : Prop :=
  ∃ label te, s.tripleExpression? label = some te ∧ s.resolveTriple? (.ref label) = none

/-- What a triple expression without unsupported parts reveals has none, if that is so of all
labelled ones. -/
theorem plain_of_reveals
    (hlabelled : ∀ label te, s.tripleExpression? label = some te → te.Plain) {te e : TripleExpr}
    (hplain : te.Plain) (h : s.Reveals te e) : e.Plain := by
  induction h with
  | refl => exact hplain
  | tail _ hopens ih =>
    cases hopens with
    | eachOf he =>
      cases ih with
      | eachOf _ _ hmembers => exact hmembers _ he
    | oneOf he =>
      cases ih with
      | oneOf _ _ hmembers => exact hmembers _ he
    | ref hl => exact hlabelled _ _ hl

/-- A label that a triple expression reveals is one of its own labels, or one of them reaches it. -/
theorem label_of_reveals {te : TripleExpr} {label : Label} (h : s.Reveals te (.ref label)) :
    ∃ l ∈ te.labels, Relation.ReflTransGen s.RefersTo (.tripleExpr l) (.tripleExpr label) := by
  induction h using Relation.ReflTransGen.head_induction_on with
  | refl => exact ⟨label, List.mem_singleton.2 rfl, .refl⟩
  | head hopens _ ih =>
    obtain ⟨l, hl, hreach⟩ := ih
    cases hopens with
    | eachOf he => exact ⟨l, TripleGroup.labels_of_member he hl, hreach⟩
    | oneOf he => exact ⟨l, TripleGroup.labels_of_member he hl, hreach⟩
    | ref hlabel =>
      have hrefers := TripleExpr.mem_references.2 (.inl ⟨l, hl, rfl⟩)
      exact ⟨_, List.mem_singleton.2 rfl, .head (.tripleExpr hlabel hrefers) hreach⟩

/-- Without recursion no label of a triple expression reveals itself. -/
theorem not_loops_of_acyclic (hacyclic : s.Acyclic) (label : Label) : ¬s.Loops label := by
  intro hloops
  obtain ⟨te, hopens, hreveals⟩ := Relation.TransGen.head'_iff.1 hloops
  obtain ⟨l, hl, hreach⟩ := label_of_reveals hreveals
  have hrefers := TripleExpr.mem_references.2 (.inl ⟨l, hl, rfl⟩)
  exact hacyclic _ (.head' (.tripleExpr (opens_ref_iff.1 hopens) hrefers) hreach)

/-- A label that leads to an unknown one over references only is the beginning of a dead end. -/
theorem Misleads.deadEnd {label : Label} (h : s.Misleads label) : s.DeadEnd := by
  obtain ⟨te, hte⟩ := Option.ne_none_iff_exists'.1 h.known
  refine ⟨label, te, hte, ?_⟩
  by_contra hsome
  obtain ⟨target, hr⟩ := Option.ne_none_iff_exists'.1 hsome
  exact not_dangles_of_follow? hr h.dangles

/-- Without recursion, a triple expression without unsupported parts is compiled unless a chain of
references has no known end. -/
theorem compile_error (hacyclic : s.Acyclic)
    (hlabelled : ∀ label te, s.tripleExpression? label = some te → te.Plain)
    {expression : Option TripleExpr} (hplain : ∀ te, expression = some te → te.Plain)
    {failure : Failure} (h : s.compile expression = .error failure) :
    failure = .notImplemented .recursiveTripleReferences ∧ s.DeadEnd := by
  obtain ⟨te, heq, e, feature, hreveals, hobstructs, rfl⟩ := obstructed_of_compile h
  have he := plain_of_reveals hlabelled (hplain te heq) hreveals
  cases hobstructs with
  | cardinality hcardinality hc =>
    cases he with
    | eachOf hone => exact absurd (hone _ hcardinality) hc
    | oneOf hone => exact absurd (hone _ hcardinality) hc
    | _ => cases hcardinality
  | acts hacts =>
    cases he with
    | eachOf _ hnone => exact absurd hnone hacts
    | oneOf _ hnone => exact absurd hnone hacts
    | triple hnone => exact absurd hnone hacts
    | ref => exact absurd rfl hacts
  | loops hloops => exact absurd hloops (not_loops_of_acyclic hacyclic _)
  | misleads hmisleads => exact ⟨rfl, hmisleads.deadEnd⟩

/-- A shape is not compiled only because it has something that is not supported. -/
theorem unsupported_of_compileShape {shape : Shape} {failure : Failure}
    (h : s.compileShape shape = .error failure) : ∃ feature, failure = .notImplemented feature := by
  unfold compileShape at h
  split at h
  · cases h
    exact ⟨_, rfl⟩
  split at h
  · cases h
    exact ⟨_, rfl⟩
  split at h
  · cases h
    exact ⟨_, rfl⟩
  obtain ⟨te, -, e, feature, -, -, hfailure⟩ := obstructed_of_compile h
  exact ⟨feature, hfailure⟩

end Schema

/-! ## Failures of evaluations -/

namespace Setting

variable {w : Setting}

/-- A compound expression fails by itself only for a feature that is not supported, or because there
are too many ways to share out arcs. -/
theorem fails_inquiry {e : ShapeExpr} {node : Term} {failure : Failure}
    (h : (w.inquiry e node).Fails failure) :
    (∃ feature, failure = .notImplemented feature) ∨ ∃ complexity,
      w.limits.maxSearchSpace ≤ complexity ∧
        failure = .searchSpaceExceeded complexity w.limits.maxSearchSpace := by
  cases e with
  | or operands => exact (not_fails_anyInquiry h).elim
  | and operands => exact (not_fails_allInquiry h).elim
  | not operand =>
    rcases Inquiry.fails_bind h with h | ⟨b, h⟩
    · exact (Inquiry.not_fails_question h).elim
    · exact h.elim
  | shape shape => exact (fails_shapeInquiry h).imp_left Schema.unsupported_of_compileShape
  | external => exact .inl ⟨_, h⟩
  | node c => exact (Inquiry.not_fails_question h).elim
  | ref label => exact (Inquiry.not_fails_question h).elim

/-- What can keep a question from its answer if everything in it is supported. -/
inductive Excuse (w : Setting) : Failure → Prop
  | tooDeep (depth : Nat) : Excuse w (.recursionTooDeep depth)
  | tooMany {complexity : Nat} (h : w.limits.maxSearchSpace ≤ complexity) :
      Excuse w (.searchSpaceExceeded complexity w.limits.maxSearchSpace)
  | deadEnd (h : w.schema.DeadEnd) : Excuse w (.notImplemented .recursiveTripleReferences)

/-- Where everything is supported, unfolding fails for an excuse only. -/
theorem excuse_of_unfold (hacyclic : w.schema.Acyclic)
    (hs : w.schema.Supported w.limits.maxRegexLength) {all : List ShapeExpr}
    (hall : w.schema.Closed all) (hplain : ∀ p ∈ all, p.Plain w.limits.maxRegexLength) {n : Nat}
    {e : ShapeExpr} {node : Term} {failure : Failure}
    (h : w.unfold n e node = some (.error failure)) (he : e ∈ all) : w.Excuse failure := by
  induction n generalizing e node with
  | zero => cases h
  | succ n ih =>
    by_cases hc : e.isCompound
    · rw [unfold_of_compound hc] at h
      rcases Inquiry.failure_of_resolve h with h | ⟨e', node', hm, h⟩
      · cases e with
        | or operands => exact (not_fails_anyInquiry h).elim
        | and operands => exact (not_fails_allInquiry h).elim
        | not operand =>
          rcases Inquiry.fails_bind h with h | ⟨b, h⟩
          · exact (Inquiry.not_fails_question h).elim
          · exact h.elim
        | shape shape =>
          rcases fails_shapeInquiry h with h | ⟨complexity, hmany, rfl⟩
          · rw [Schema.compileShape_of_plain (hplain _ he)] at h
            obtain ⟨rfl, hdead⟩ := Schema.compile_error hacyclic hs.tripleExpressions
              (hplain _ he).2.2.2 h
            exact .deadEnd hdead
          · exact .tooMany hmany
        | external => exact (hplain _ he).elim
        | node c => cases hc
        | ref label => cases hc
      · exact ih h (hall.embeds e e' (embeds_of_mentions hc hm.mentions).1 he)
    · cases e with
      | node c =>
        obtain ⟨b, hb⟩ := exists_constraintAnswer (hplain _ he) node
        cases (Option.some.inj h).symm.trans hb
      | ref label =>
        cases hl : w.schema.find? label with
        | none =>
          rw [unfold, hl] at h
          cases h
        | some entry =>
          obtain ⟨index, d⟩ := entry
          have hd := (Schema.mem_of_find? hl).1
          rw [unfold_of_known hl, hs.concrete d hd, if_neg Bool.false_ne_true] at h
          exact ih h (hall.declared d hd)
      | _ => exact absurd rfl hc

end Setting

end ShEx
